/-
  LivePreview.Proofs.Tree.Validation
  ──────────────────────────────────
  **Which snapshots are accepted, and what they say.**

  A mapping is accepted if and only if it is valid (`Valid`): each key is a text, no two
  keys have one normal form, each entry is that of a file or of a directory, and the root
  and the parent of every other path are directories.  Neither this nor the tree depends
  on the order of the mapping (`ofSnapshot_eq_ok_iff` speaks of its members only), and the
  tree is written as the mapping in normal form and in ascending order
  (`perm_serialize`).
-/
import Mathlib.Data.List.Nodup
import Mathlib.Data.List.Perm.Subperm
import LivePreview.Proofs.Tree.Snapshot

namespace LivePreview.Tree

/-! ## §1. Entries -/

/-- The normal form of a key, if it is a text. -/
def pathOf? (entry : Json × Json) : Option Text :=
  entry.1.text?.map Path.normalize

theorem pathOf?_eq_some_iff {entry : Json × Json} {path : Text} :
    pathOf? entry = some path ↔ ∃ key, entry.1 = .text key ∧ Path.normalize key = path := by
  obtain ⟨key, value⟩ := entry
  cases key <;> simp [pathOf?, Json.text?]

/-- The entry is one of a file, with a text for its content, or with none. -/
def IsFileEntry (entry : Json) : Prop :=
  entry.field? "kind" = some (.text "file") ∧ (contentOf entry = .null ∨ ∃ s, contentOf entry = .text s)

/-- The entry is one of a directory, without content. -/
def IsDirectoryEntry (entry : Json) : Prop :=
  entry.field? "kind" = some (.text "directory") ∧ contentOf entry = .null

/-- What is asked of a mapping that is to describe a tree. -/
structure Valid (entries : List (Json × Json)) : Prop where
  keys : ∀ entry ∈ entries, ∃ key, entry.1 = .text key
  distinct : (entries.filterMap pathOf?).Nodup
  kinds : ∀ entry ∈ entries, IsFileEntry entry.2 ∨ IsDirectoryEntry entry.2
  root : ∃ entry ∈ entries, pathOf? entry = some Path.root ∧ IsDirectoryEntry entry.2
  parents : ∀ entry ∈ entries, ∀ path, pathOf? entry = some path → path ≠ Path.root →
    ∃ parent ∈ entries, pathOf? parent = some (Path.parent path) ∧ IsDirectoryEntry parent.2

/-- The entry as it is written: its kind, and the content of a file, which is the empty text if none
is given. -/
def canonical (entry : Json) : Json :=
  if entry.field? "kind" = some (.text "file") then
    .object [("kind", .text "file"),
      ("content", if contentOf entry = .null then .text "" else contentOf entry)]
  else .object [("kind", .text "directory")]

theorem isDirectoryEntry_iff {entry : Json} :
    IsDirectoryEntry entry ↔ Describes entry Node.emptyDirectory := by
  constructor
  · rintro ⟨hkind, hcontent⟩
    exact .directory hkind hcontent
  · intro h
    generalize hnode : Node.emptyDirectory = node at h
    cases h with
    | directory hkind hcontent => exact ⟨hkind, hcontent⟩
    | _ => cases hnode

theorem isEntry_iff {entry : Json} :
    IsFileEntry entry ∨ IsDirectoryEntry entry ↔ ∃ node, Describes entry node := by
  constructor
  · rintro (⟨hkind, hcontent | ⟨s, hcontent⟩⟩ | ⟨hkind, hcontent⟩)
    · exact ⟨_, .blank hkind hcontent⟩
    · exact ⟨_, .text s hkind hcontent⟩
    · exact ⟨_, .directory hkind hcontent⟩
  · rintro ⟨_, hdescribes⟩
    cases hdescribes with
    | text s hkind hcontent => exact .inl ⟨hkind, .inr ⟨s, hcontent⟩⟩
    | blank hkind hcontent => exact .inl ⟨hkind, .inl hcontent⟩
    | directory hkind hcontent => exact .inr ⟨hkind, hcontent⟩

/-- The written form of an entry is the entry of the node that it describes. -/
theorem Describes.entryOf_eq {entry : Json} {node : Node} (h : Describes entry node) :
    entryOf node = canonical entry := by
  unfold canonical
  cases h with
  | text s hkind hcontent =>
    rw [if_pos hkind, hcontent, if_neg nofun]
    rfl
  | blank hkind hcontent =>
    rw [if_pos hkind, hcontent, if_pos rfl]
    rfl
  | directory hkind hcontent =>
    have hother : entry.field? "kind" ≠ some (.text "file") := by
      rw [hkind]
      decide
    rw [if_neg hother]
    rfl

/-! ## §2. The first pass -/

/-- The path and the node that a key and its entry describe. -/
def described? (entry : Json × Json) : Option (Text × Node) :=
  (pathOf? entry).bind fun path => (nodeOf path entry.2).toOption.map (path, ·)

theorem described?_eq_some_iff {entry : Json × Json} {path : Text} {node : Node} :
    described? entry = some (path, node) ↔ pathOf? entry = some path ∧ Describes entry.2 node := by
  unfold described?
  constructor
  · intro h
    obtain ⟨key, hkey, hnode⟩ := Option.bind_eq_some_iff.mp h
    obtain ⟨found, hfound, heq⟩ := Option.map_eq_some_iff.mp hnode
    cases heq
    have hresult : nodeOf path entry.2 = .ok node := by
      cases hother : nodeOf path entry.2 with
      | error fault =>
        rw [hother] at hfound
        cases hfound
      | ok other =>
        rw [hother] at hfound
        cases hfound
        rfl
    exact ⟨hkey, nodeOf_eq_ok_iff.mp hresult⟩
  · rintro ⟨hkey, hnode⟩
    rw [hkey, Option.bind_some, nodeOf_eq_ok_iff.mpr hnode]
    rfl

/-- Put nodes at paths, from left to right. -/
def insertAll (tree : Tree) (nodes : List (Text × Node)) : Tree :=
  nodes.foldl (fun t (path, node) => ⟨t.nodes.insert path node⟩) tree

theorem has_insert (tree : Tree) (path : Text) (node : Node) (q : Text) :
    (⟨tree.nodes.insert path node⟩ : Tree).has q = (decide (q = path) || tree.has q) := by
  unfold has
  rw [get?_insert]
  by_cases hq : q = path <;> simp [hq]

theorem readEntry_eq_ok_iff {tree next : Tree} {entry : Json × Json} :
    tree.readEntry entry = .ok next ↔ ∃ path node, described? entry = some (path, node)
      ∧ tree.has path = false ∧ next = ⟨tree.nodes.insert path node⟩ := by
  constructor
  · intro hok
    obtain ⟨key, node, hkey, hfree, hnode, rfl⟩ := readEntry_eq_ok hok
    have hpath := pathOf?_eq_some_iff.mpr ⟨key, hkey, rfl⟩
    exact ⟨_, node, described?_eq_some_iff.mpr ⟨hpath, hnode⟩, hfree, rfl⟩
  · rintro ⟨path, node, hdescribed, hfree, rfl⟩
    obtain ⟨hpath, hnode⟩ := described?_eq_some_iff.mp hdescribed
    obtain ⟨key, htext, rfl⟩ := pathOf?_eq_some_iff.mp hpath
    unfold readEntry
    rw [htext]
    dsimp only
    rw [hfree, if_neg Bool.false_ne_true, nodeOf_eq_ok_iff.mpr hnode]
    rfl

/-- Entries are entered one behind the other if and only if each describes a node, and no two nodes
come to one path. -/
theorem foldlM_readEntry_eq_ok_iff {tree raw : Tree} {entries : List (Json × Json)} :
    entries.foldlM readEntry tree = .ok raw
      ↔ (∀ entry ∈ entries, (described? entry).isSome = true)
        ∧ ((entries.filterMap described?).map Prod.fst).Nodup
        ∧ (∀ entry ∈ entries.filterMap described?, tree.has entry.1 = false)
        ∧ raw = tree.insertAll (entries.filterMap described?) := by
  induction entries generalizing tree with
  | nil =>
    show (.ok tree : Except SnapshotFault Tree) = .ok raw ↔ _
    rw [Except.ok.injEq]
    exact ⟨fun h => ⟨nofun, List.nodup_nil, nofun, h.symm⟩, fun h => h.2.2.2.symm⟩
  | cons entry entries ih =>
    rw [List.foldlM_cons, Result.bind_eq_ok_iff, List.forall_mem_cons]
    constructor
    · rintro ⟨next, hnext, hrest⟩
      obtain ⟨path, node, hdescribed, hfree, rfl⟩ := readEntry_eq_ok_iff.mp hnext
      obtain ⟨hsome, hnodup, hothers, rfl⟩ := ih.mp hrest
      rw [List.filterMap_cons_some hdescribed, List.map_cons, List.nodup_cons, List.forall_mem_cons]
      -- behind the first entry its path is taken
      have hapart : ∀ other ∈ entries.filterMap described?,
          other.1 ≠ path ∧ tree.has other.1 = false := by
        intro other hother
        have hboth := hothers other hother
        rw [has_insert, Bool.or_eq_false_iff, decide_eq_false_iff_not] at hboth
        exact hboth
      refine ⟨⟨by rw [hdescribed]; rfl, hsome⟩, ⟨fun hmem => ?_, hnodup⟩,
        ⟨hfree, fun other hother => (hapart other hother).2⟩, rfl⟩
      obtain ⟨other, hother, heq⟩ := List.mem_map.mp hmem
      exact (hapart other hother).1 heq
    · rintro ⟨⟨hfirst, hsome⟩, hnodup, hothers, hraw⟩
      obtain ⟨⟨path, node⟩, hdescribed⟩ := Option.isSome_iff_exists.mp hfirst
      rw [List.filterMap_cons_some hdescribed] at hnodup hothers hraw
      rw [List.map_cons, List.nodup_cons] at hnodup
      rw [List.forall_mem_cons] at hothers
      refine ⟨_, readEntry_eq_ok_iff.mpr ⟨path, node, hdescribed, hothers.1, rfl⟩,
        ih.mpr ⟨hsome, hnodup.2, fun other hother => ?_, hraw⟩⟩
      have hne : other.1 ≠ path := fun heq => hnodup.1 (List.mem_map.mpr ⟨other, hother, heq⟩)
      rw [has_insert, hothers.2 other hother, Bool.or_false, decide_eq_false hne]

/-- What stands in a tree that nodes with different paths are put into. -/
theorem get?_insertAll {tree : Tree} {nodes : List (Text × Node)} (hnodup : (nodes.map Prod.fst).Nodup)
    (hfree : ∀ entry ∈ nodes, tree.has entry.1 = false) {path : Text} {node : Node} :
    (tree.insertAll nodes).get? path = some node
      ↔ (path, node) ∈ nodes ∨ tree.get? path = some node := by
  unfold insertAll
  induction nodes generalizing tree with
  | nil => simp
  | cons entry nodes ih =>
    obtain ⟨first, put⟩ := entry
    rw [List.map_cons, List.nodup_cons] at hnodup
    rw [List.forall_mem_cons] at hfree
    have hothers : ∀ other ∈ nodes, (⟨tree.nodes.insert first put⟩ : Tree).has other.1 = false := by
      intro other hother
      have hne : other.1 ≠ first := fun heq => hnodup.1 (List.mem_map.mpr ⟨other, hother, heq⟩)
      rw [has_insert, hfree.2 other hother, Bool.or_false, decide_eq_false hne]
    rw [List.foldl_cons, ih hnodup.2 hothers, get?_insert, List.mem_cons, Prod.mk.injEq]
    by_cases hpath : path = first
    · -- nothing stood at the first path, and nothing else comes there
      have hnone : tree.get? first = none := by simpa [has] using hfree.1
      have hnew : (first, node) ∉ nodes := fun hmem => hnodup.1 (List.mem_map.mpr ⟨_, hmem, rfl⟩)
      simp [hpath, hnone, hnew, eq_comm]
    · simp [hpath]

theorem has_nil (path : Text) : (⟨∅⟩ : Tree).has path = false := by
  rw [has, get?_nil]
  rfl

/-! ## §3. What is accepted -/

/-- The bare nodes behind the first pass are those that the members describe. -/
theorem bare_insertAll_nil {entries : List (Json × Json)}
    (hnodup : ((entries.filterMap described?).map Prod.fst).Nodup) (path : Text) (node : Node) :
    (insertAll ⟨∅⟩ (entries.filterMap described?)).bare path = some node
      ↔ (path, node) ∈ entries.filterMap described? := by
  have hget : ∀ node, (insertAll ⟨∅⟩ (entries.filterMap described?)).get? path = some node
      ↔ (path, node) ∈ entries.filterMap described? := by
    intro node
    rw [get?_insertAll hnodup fun entry _ => has_nil entry.1, get?_nil]
    simp
  -- a described node has no children, so it is bare already
  have hemptied : ∀ node, (path, node) ∈ entries.filterMap described? → emptied node = node := by
    intro node hmem
    obtain ⟨entry, -, hdescribed⟩ := List.mem_filterMap.mp hmem
    exact (described?_eq_some_iff.mp hdescribed).2.emptied_eq
  unfold bare
  rw [Option.map_eq_some_iff]
  constructor
  · rintro ⟨original, horiginal, rfl⟩
    have hmem := (hget original).mp horiginal
    rwa [hemptied original hmem]
  · intro hmem
    exact ⟨node, (hget node).mpr hmem, hemptied node hmem⟩

/-- A snapshot that gets through all passes is accepted. -/
theorem ofSnapshot_of_passes {entries : List (Json × Json)} {raw tree : Tree}
    (hraw : entries.foldlM readEntry ⟨∅⟩ = .ok raw)
    (hroot : raw.bare Path.root = some Node.emptyDirectory) (hlink : raw.linkChildren = .ok tree) :
    ofSnapshot (.mapping entries) = .ok tree := by
  show (entries.foldlM readEntry ⟨∅⟩ >>= fun t => t.checkRoot >>= fun _ => t.linkChildren).mapError
    Error.snapshot = .ok tree
  rw [hraw]
  show (raw.checkRoot >>= fun _ => raw.linkChildren).mapError Error.snapshot = .ok tree
  rw [checkRoot_eq_ok_iff.mpr hroot, hlink]
  rfl

/-- When the first pass has entered the bare nodes of a well-formed tree, the others make this tree of
them. -/
theorem ofSnapshot_eq_ok_of_bare {entries : List (Json × Json)} {raw tree : Tree}
    (hraw : entries.foldlM readEntry ⟨∅⟩ = .ok raw) (h : tree.WellFormed)
    (hbare : ∀ q, raw.bare q = tree.bare q) : ofSnapshot (.mapping entries) = .ok tree := by
  have hhas : ∀ q, raw.has q = tree.has q := by
    intro q
    rw [← isSome_bare, hbare, isSome_bare]
  have hroot : raw.bare Path.root = some Node.emptyDirectory := by
    rw [hbare, h.grounded.root_bare]
  have hlink : raw.linkChildren = .ok (raw.nodes.keys.foldl enterInParent raw) := by
    refine linkChildren_eq_ok_iff.mpr ⟨fun path hpath hne => ?_, rfl⟩
    rw [hbare]
    exact h.grounded.parent_bare path (by rwa [hhas] at hpath) hne
  obtain ⟨hlinked, hlinkedbare⟩ :=
    (unlinked_nil.foldlM_readEntry hraw).wellFormed_linkChildren hroot hlink
  -- with its children every well-formed tree is determined by its bare nodes
  have hsame : raw.nodes.keys.foldl enterInParent raw = tree :=
    hlinked.ext h fun q => by rw [hlinkedbare, hbare]
  exact ofSnapshot_of_passes hraw hroot (hsame ▸ hlink)

/-- What a mapping says, apart from its order: each of its members describes a node, no two of them
at one path, and there is a well-formed tree with just these nodes. -/
theorem ofSnapshot_eq_ok_iff {entries : List (Json × Json)} {tree : Tree} :
    ofSnapshot (.mapping entries) = .ok tree
      ↔ (∀ entry ∈ entries, (described? entry).isSome = true)
        ∧ ((entries.filterMap described?).map Prod.fst).Nodup
        ∧ tree.WellFormed
        ∧ ∀ path node, tree.bare path = some node ↔ (path, node) ∈ entries.filterMap described? := by
  constructor
  · intro hok
    obtain ⟨_, raw, heq, hraw, hroot, hlink⟩ := ofSnapshot_eq_ok hok
    cases heq
    obtain ⟨hformed, hbare⟩ := (unlinked_nil.foldlM_readEntry hraw).wellFormed_linkChildren hroot hlink
    obtain ⟨hsome, hnodup, -, rfl⟩ := foldlM_readEntry_eq_ok_iff.mp hraw
    refine ⟨hsome, hnodup, hformed, fun path node => ?_⟩
    rw [hbare, bare_insertAll_nil hnodup]
  · rintro ⟨hsome, hnodup, hformed, hnodes⟩
    have hraw := foldlM_readEntry_eq_ok_iff.mpr ⟨hsome, hnodup, fun entry _ => has_nil entry.1, rfl⟩
    refine ofSnapshot_eq_ok_of_bare hraw hformed fun q => Option.ext fun node => ?_
    rw [bare_insertAll_nil hnodup, hnodes]

/-- The order of a mapping makes no difference. -/
theorem ofSnapshot_congr_perm {entries other : List (Json × Json)} (hperm : entries.Perm other)
    (tree : Tree) : ofSnapshot (.mapping entries) = .ok tree ↔ ofSnapshot (.mapping other) = .ok tree := by
  have hnodes := hperm.filterMap described?
  have hkeys := hnodes.map Prod.fst
  rw [ofSnapshot_eq_ok_iff, ofSnapshot_eq_ok_iff, hkeys.nodup_iff]
  simp only [hperm.mem_iff, hnodes.mem_iff]

/-- The paths of the nodes that members describe are those of their keys. -/
theorem map_fst_described {entries : List (Json × Json)}
    (hsome : ∀ entry ∈ entries, (described? entry).isSome = true) :
    (entries.filterMap described?).map Prod.fst = entries.filterMap pathOf? := by
  rw [List.map_filterMap]
  refine List.filterMap_congr fun entry hentry => ?_
  obtain ⟨⟨path, node⟩, hdescribed⟩ := Option.isSome_iff_exists.mp (hsome entry hentry)
  rw [hdescribed, (described?_eq_some_iff.mp hdescribed).1]
  rfl

/-- A directory among the described nodes comes from the entry of a directory. -/
theorem mem_described_iff {entries : List (Json × Json)} {path : Text} :
    (path, Node.emptyDirectory) ∈ entries.filterMap described?
      ↔ ∃ entry ∈ entries, pathOf? entry = some path ∧ IsDirectoryEntry entry.2 := by
  simp only [List.mem_filterMap, described?_eq_some_iff, isDirectoryEntry_iff]

/-- **A mapping is accepted if and only if it is valid.** -/
theorem exists_ofSnapshot_eq_ok_iff {entries : List (Json × Json)} :
    (∃ tree, ofSnapshot (.mapping entries) = .ok tree) ↔ Valid entries := by
  constructor
  · rintro ⟨tree, hok⟩
    obtain ⟨hsome, hnodup, hformed, hnodes⟩ := ofSnapshot_eq_ok_iff.mp hok
    refine ⟨fun entry hentry => ?_, map_fst_described hsome ▸ hnodup, fun entry hentry => ?_,
      mem_described_iff.mp ((hnodes _ _).mp hformed.grounded.root_bare),
      fun entry hentry path hpath hroot => ?_⟩
    all_goals
      obtain ⟨⟨found, node⟩, hdescribed⟩ := Option.isSome_iff_exists.mp (hsome entry hentry)
      obtain ⟨hfound, hnode⟩ := described?_eq_some_iff.mp hdescribed
    · obtain ⟨key, hkey, -⟩ := pathOf?_eq_some_iff.mp hfound
      exact ⟨key, hkey⟩
    · exact isEntry_iff.mpr ⟨node, hnode⟩
    · -- the path stands in the tree, so its parent is a directory there
      obtain rfl : found = path := Option.some.inj (hfound.symm.trans hpath)
      have hbare := (hnodes found node).mpr (List.mem_filterMap.mpr ⟨entry, hentry, hdescribed⟩)
      exact mem_described_iff.mp
        ((hnodes _ _).mp (hformed.grounded.parent_bare found (has_of_bare hbare) hroot))
  · intro hvalid
    have hsome : ∀ entry ∈ entries, (described? entry).isSome = true := by
      intro entry hentry
      obtain ⟨key, hkey⟩ := hvalid.keys entry hentry
      obtain ⟨node, hnode⟩ := isEntry_iff.mp (hvalid.kinds entry hentry)
      rw [described?_eq_some_iff.mpr ⟨pathOf?_eq_some_iff.mpr ⟨key, hkey, rfl⟩, hnode⟩]
      rfl
    have hnodup : ((entries.filterMap described?).map Prod.fst).Nodup := by
      rw [map_fst_described hsome]
      exact hvalid.distinct
    have hraw := foldlM_readEntry_eq_ok_iff.mpr ⟨hsome, hnodup, fun entry _ => has_nil entry.1, rfl⟩
    have hbare := bare_insertAll_nil hnodup
    refine ⟨_, ofSnapshot_of_passes hraw ((hbare _ _).mpr (mem_described_iff.mpr hvalid.root))
      (linkChildren_eq_ok_iff.mpr ⟨fun path hpath hroot => ?_, rfl⟩)⟩
    obtain ⟨node, hnode⟩ := Option.isSome_iff_exists.mp ((isSome_bare _ _).trans hpath)
    obtain ⟨entry, hentry, hdescribed⟩ := List.mem_filterMap.mp ((hbare _ _).mp hnode)
    have hparent := hvalid.parents entry hentry path (described?_eq_some_iff.mp hdescribed).1 hroot
    exact (hbare _ _).mpr (mem_described_iff.mpr hparent)

/-! ## §4. What is written -/

/-- The nodes of a tree without their children, in ascending order of their paths. -/
def bareNodes (tree : Tree) : List (Text × Node) :=
  tree.toList.map fun (path, node) => (path, emptied node)

theorem mem_bareNodes_iff {tree : Tree} {path : Text} {node : Node} :
    (path, node) ∈ tree.bareNodes ↔ tree.bare path = some node := by
  unfold bareNodes bare
  rw [List.mem_map, Option.map_eq_some_iff]
  constructor
  · rintro ⟨⟨q, original⟩, hmem, heq⟩
    cases heq
    exact ⟨original, mem_toList_iff.mp hmem, rfl⟩
  · rintro ⟨original, hget, rfl⟩
    exact ⟨(path, original), mem_toList_iff.mpr hget, rfl⟩

theorem nodup_bareNodes (tree : Tree) : (tree.bareNodes.map Prod.fst).Nodup := by
  unfold bareNodes toList
  rw [List.map_map]
  show (tree.nodes.toList.map Prod.fst).Nodup
  rw [Std.ExtTreeMap.map_fst_toList_eq_keys]
  exact Std.ExtTreeMap.nodup_keys

/-- A snapshot tells the bare nodes of a tree. -/
theorem serialize_eq (tree : Tree) :
    tree.serialize = tree.bareNodes.map fun (path, node) => (path, entryOf node) := by
  unfold serialize bareNodes
  rw [List.map_map]
  refine List.map_congr_left fun (path, node) _ => ?_
  cases node <;> rfl

theorem sorted_serialize (tree : Tree) :
    tree.serialize.Pairwise fun a b => compare a.1 b.1 = .lt := by
  unfold serialize
  rw [List.pairwise_map]
  exact Std.ExtTreeMap.ordered_keys_toList

/-- A mapping in normal form, with its entries as they are written. -/
def canonicalEntries (entries : List (Json × Json)) : Json.Fields :=
  entries.filterMap fun entry => (pathOf? entry).map (·, canonical entry.2)

/-- The snapshot of the tree that a mapping describes has the members of the mapping, in normal
form. -/
theorem perm_serialize {entries : List (Json × Json)} {tree : Tree}
    (hok : ofSnapshot (.mapping entries) = .ok tree) :
    tree.serialize.Perm (canonicalEntries entries) := by
  obtain ⟨hsome, hnodup, -, hnodes⟩ := ofSnapshot_eq_ok_iff.mp hok
  have hperm : tree.bareNodes.Perm (entries.filterMap described?) := by
    refine (List.perm_ext_iff_of_nodup tree.nodup_bareNodes.of_map hnodup.of_map).mpr ?_
    rintro ⟨path, node⟩
    rw [mem_bareNodes_iff, hnodes]
  have hcanonical : canonicalEntries entries
      = (entries.filterMap described?).map fun (path, node) => (path, entryOf node) := by
    unfold canonicalEntries
    rw [List.map_filterMap]
    refine List.filterMap_congr fun entry hentry => ?_
    obtain ⟨⟨path, node⟩, hdescribed⟩ := Option.isSome_iff_exists.mp (hsome entry hentry)
    obtain ⟨hpath, hnode⟩ := described?_eq_some_iff.mp hdescribed
    rw [hdescribed, hpath, Option.map_some, Option.map_some]
    show some (path, canonical entry.2) = some (path, entryOf node)
    rw [hnode.entryOf_eq]
  rw [serialize_eq, hcanonical]
  exact hperm.map _

theorem describes_entryOf {node : Node} (h : node.HoldsText) :
    Describes (entryOf node) (emptied node) := by
  cases node with
  | directory children => exact .directory rfl rfl
  | file content =>
    obtain ⟨s, rfl⟩ := h content rfl
    exact .text s rfl rfl

/-- A well-formed tree of texts is read back from its snapshot. -/
theorem WellFormed.ofSnapshot_serialize {tree : Tree} (h : tree.WellFormed)
    (htexts : tree.HoldsTexts) : ofSnapshot (.ofFields tree.serialize) = .ok tree := by
  -- each member of the snapshot describes the bare node that it was written for
  have hdescribed : ∀ entry ∈ tree.toList,
      described? (.text entry.1, entryOf entry.2) = some (entry.1, emptied entry.2) := by
    rintro ⟨path, node⟩ hmem
    have hget := mem_toList_iff.mp hmem
    exact described?_eq_some_iff.mpr
      ⟨pathOf?_eq_some_iff.mpr ⟨path, rfl, h.isNormal path node hget⟩,
        describes_entryOf (htexts path node hget)⟩
  let entries := tree.toList.map fun entry => (Json.text entry.1, entryOf entry.2)
  have hfields : Snapshot.ofFields tree.serialize = .mapping entries := by
    unfold Snapshot.ofFields serialize
    rw [List.map_map]
    rfl
  have hnodes : entries.filterMap described? = tree.bareNodes := by
    unfold bareNodes
    rw [List.filterMap_map, ← List.filterMap_eq_map]
    exact List.filterMap_congr hdescribed
  rw [hfields, ofSnapshot_eq_ok_iff, hnodes]
  refine ⟨?_, tree.nodup_bareNodes, h, fun path node => mem_bareNodes_iff.symm⟩
  intro entry hentry
  obtain ⟨original, hmem, rfl⟩ := List.mem_map.mp hentry
  rw [hdescribed original hmem]
  rfl

end LivePreview.Tree
