/-
  LivePreview.Proofs.Tree.Snapshot
  ────────────────────────────────
  **Reading snapshots, pass by pass.**

  A snapshot is read in three passes.  The first one enters every node without its
  children (`Unlinked`); the second one looks for the root and for the directory of
  every path; the last one enters every path in its directory.  A snapshot that is
  accepted describes a well-formed tree of texts (`wellFormed_ofSnapshot`,
  `holdsTexts_ofSnapshot`).
-/
import LivePreview.Proofs.Tree.Operations
import LivePreview.Tree.Snapshot

namespace LivePreview.Tree

open LivePreview.Path (IsNormal)

/-! ## §1. Entries -/

/-- The content that an entry gives, null if it gives none. -/
def contentOf (entry : Json) : Json :=
  (entry.field? "content").getD .null

/-- What an entry says. -/
inductive Describes (entry : Json) : Node → Prop
  | text (s : Text) (hkind : entry.field? "kind" = some (.text "file"))
      (hcontent : contentOf entry = .text s) : Describes entry (.file (.text s))
  | blank (hkind : entry.field? "kind" = some (.text "file")) (hcontent : contentOf entry = .null) :
      Describes entry (.file (.text ""))
  | directory (hkind : entry.field? "kind" = some (.text "directory"))
      (hcontent : contentOf entry = .null) : Describes entry Node.emptyDirectory

theorem kind_eq_iff (fields : Json.Fields) (word : Text) :
    (Table.get? fields "kind").getD .null = .text word
      ↔ (Json.object fields).field? "kind" = some (.text word) := by
  show _ ↔ Table.get? fields "kind" = _
  cases Table.get? fields "kind" <;> simp

theorem describes_of_nodeOf {path : Text} {entry : Json} {node : Node}
    (hok : nodeOf path entry = .ok node) : Describes entry node := by
  unfold nodeOf at hok
  split at hok
  · next fields =>
    dsimp only at hok
    split at hok
    · next hkind =>
      have hkind := (kind_eq_iff _ _).mp hkind
      split at hok
      · next hcontent =>
        cases hok
        exact .blank hkind hcontent
      · next s hcontent =>
        cases hok
        exact .text s hkind hcontent
      · cases hok
    · split at hok
      · next hkind =>
        split at hok
        · next hcontent =>
          cases hok
          exact .directory ((kind_eq_iff _ _).mp hkind) hcontent
        · cases hok
      · cases hok
  · cases hok

theorem Describes.nodeOf_eq {entry : Json} {node : Node} (h : Describes entry node) (path : Text) :
    nodeOf path entry = .ok node := by
  -- nothing but an object has a kind
  have hobject : ∃ fields, entry = .object fields := by
    cases h <;> cases entry <;> first | exact ⟨_, rfl⟩ | contradiction
  obtain ⟨fields, rfl⟩ := hobject
  unfold nodeOf
  dsimp only
  cases h with
  | text s hkind hcontent =>
    have hcontent : (Table.get? fields "content").getD .null = .text s := hcontent
    rw [hcontent, if_pos ((kind_eq_iff fields NodeKind.file.word).mpr hkind)]
  | blank hkind hcontent =>
    have hcontent : (Table.get? fields "content").getD .null = .null := hcontent
    rw [hcontent, if_pos ((kind_eq_iff fields NodeKind.file.word).mpr hkind)]
  | directory hkind hcontent =>
    have hcontent : (Table.get? fields "content").getD .null = .null := hcontent
    have hkind := (kind_eq_iff fields NodeKind.directory.word).mpr hkind
    rw [hcontent, hkind, if_neg (by decide), if_pos rfl, if_pos rfl]

/-- An entry is read as what it says. -/
theorem nodeOf_eq_ok_iff {path : Text} {entry : Json} {node : Node} :
    nodeOf path entry = .ok node ↔ Describes entry node :=
  ⟨describes_of_nodeOf, fun h => h.nodeOf_eq path⟩

/-- The node of an entry is a file with a text or an empty directory. -/
theorem Describes.emptied_eq {entry : Json} {node : Node} (h : Describes entry node) :
    emptied node = node := by
  cases h <;> rfl

theorem Describes.holdsText {entry : Json} {node : Node} (h : Describes entry node) :
    node.HoldsText := by
  cases h with
  | text s => exact Node.holdsText_file s
  | blank => exact Node.holdsText_file _
  | directory => exact Node.holdsText_emptyDirectory

/-! ## §2. The first pass -/

/-- All paths are in normal form, all nodes are without children, and all files hold texts. -/
structure Unlinked (tree : Tree) : Prop where
  isNormal : ∀ path, tree.has path = true → IsNormal path
  emptied_eq : ∀ path node, tree.get? path = some node → emptied node = node
  holdsTexts : tree.HoldsTexts

theorem unlinked_nil : Unlinked ⟨∅⟩ := by
  refine ⟨fun path hpath => ?_, fun path node hnode => ?_, fun path node hnode => ?_⟩
  · rw [has, get?_nil] at hpath
    cases hpath
  · rw [get?_nil] at hnode
    cases hnode
  · rw [get?_nil] at hnode
    cases hnode

theorem readEntry_eq_ok {tree tree' : Tree} {entry : Json × Json}
    (hok : tree.readEntry entry = .ok tree') :
    ∃ key node, entry.1 = .text key ∧ tree.has (Path.normalize key) = false ∧
      Describes entry.2 node ∧ tree' = ⟨tree.nodes.insert (Path.normalize key) node⟩ := by
  unfold readEntry at hok
  split at hok
  · next key hkey =>
    dsimp only at hok
    split at hok
    · cases hok
    · next hfree =>
      obtain ⟨node, hnode, rfl⟩ := Result.map_eq_ok_iff.mp hok
      exact ⟨key, node, hkey, Bool.eq_false_iff.mpr hfree, nodeOf_eq_ok_iff.mp hnode, rfl⟩
  · cases hok

theorem Unlinked.readEntry {tree tree' : Tree} (h : tree.Unlinked) {entry : Json × Json}
    (hok : tree.readEntry entry = .ok tree') : tree'.Unlinked := by
  obtain ⟨key, node, -, -, hnode, rfl⟩ := readEntry_eq_ok hok
  refine ⟨fun path hpath => ?_, fun path other hother => ?_, h.holdsTexts.insert hnode.holdsText⟩
  · rw [has, get?_insert] at hpath
    split at hpath
    · next heq =>
      rw [heq]
      exact Path.isNormal_normalize key
    · exact h.isNormal path hpath
  · rw [get?_insert] at hother
    split at hother
    · cases hother
      exact hnode.emptied_eq
    · exact h.emptied_eq path other hother

theorem Unlinked.foldlM_readEntry {tree tree' : Tree} (h : tree.Unlinked)
    {entries : List (Json × Json)} (hok : entries.foldlM Tree.readEntry tree = .ok tree') :
    tree'.Unlinked := by
  induction entries generalizing tree with
  | nil =>
    cases hok
    exact h
  | cons entry entries ih =>
    rw [List.foldlM_cons] at hok
    obtain ⟨next, hnext, hrest⟩ := Result.bind_eq_ok_iff.mp hok
    exact ih (h.readEntry hnext) hrest

/-! ## §3. The last pass -/

theorem bare_enterInParent (tree : Tree) (path q : Text) :
    (tree.enterInParent path).bare q = tree.bare q := by
  unfold enterInParent
  split
  · rfl
  · exact bare_update (Node.emptied_addChild path) q

theorem bare_foldl_enterInParent (tree : Tree) (paths : List Text) (q : Text) :
    (paths.foldl enterInParent tree).bare q = tree.bare q := by
  induction paths generalizing tree with
  | nil => rfl
  | cons path paths ih => rw [List.foldl_cons, ih, bare_enterInParent]

/-- Entering a path in its directory makes it one of the children there, and changes no others. -/
theorem get?_enterInParent {tree : Tree} {path directory : Text} {children : PathSet}
    (hdir : (tree.enterInParent path).get? directory = some (.directory children)) :
    ∃ before, tree.get? directory = some (.directory before) ∧
      ∀ q, q ∈ children ↔ q ∈ before ∨ q = path ∧ q ≠ Path.root ∧ Path.parent q = directory := by
  unfold enterInParent at hdir
  by_cases hroot : path = Path.root
  · -- the root lies in no directory
    rw [if_pos hroot] at hdir
    refine ⟨children, hdir, fun q => ⟨.inl, fun hq => hq.resolve_right ?_⟩⟩
    intro ⟨heq, hne, _⟩
    exact hne (heq.trans hroot)
  · rw [if_neg hroot, get?_update] at hdir
    by_cases hparent : directory = Path.parent path
    · -- the directory of the path gains it
      rw [if_pos hparent] at hdir
      obtain ⟨node, hnode, hchild⟩ := Option.map_eq_some_iff.mp hdir
      cases node with
      | file content => cases hchild
      | directory before =>
        simp only [Node.addChild, Node.directory.injEq] at hchild
        subst hchild
        refine ⟨before, hnode, fun q => ?_⟩
        rw [Std.ExtTreeSet.mem_insert, Std.LawfulEqCmp.compare_eq_iff_eq, or_comm, eq_comm]
        refine or_congr_right ⟨fun heq => ?_, fun hq => hq.1⟩
        rw [heq]
        exact ⟨rfl, hroot, hparent.symm⟩
    · -- every other directory is as it was
      rw [if_neg hparent] at hdir
      refine ⟨children, hdir, fun q => ⟨.inl, fun hq => hq.resolve_right ?_⟩⟩
      intro ⟨heq, _, hdirectory⟩
      exact hparent (by rw [← hdirectory, heq])

/-- Entering paths in their directories adds to the children of each directory the ones that lie
in it. -/
theorem get?_foldl_enterInParent {tree : Tree} {paths : List Text} {directory : Text}
    {children : PathSet}
    (hdir : (paths.foldl enterInParent tree).get? directory = some (.directory children)) :
    ∃ before, tree.get? directory = some (.directory before) ∧
      ∀ q, q ∈ children ↔ q ∈ before ∨ q ∈ paths ∧ q ≠ Path.root ∧ Path.parent q = directory := by
  induction paths generalizing tree with
  | nil => exact ⟨children, hdir, fun q => by simp⟩
  | cons path paths ih =>
    rw [List.foldl_cons] at hdir
    obtain ⟨between, hbetween, hlater⟩ := ih hdir
    obtain ⟨before, hbefore, hfirst⟩ := get?_enterInParent hbetween
    refine ⟨before, hbefore, fun q => ?_⟩
    rw [hlater, hfirst, List.mem_cons, or_and_right, or_assoc]

/-! ## §4. What is accepted -/

theorem checkRoot_eq_ok_iff {tree : Tree} :
    tree.checkRoot = .ok () ↔ tree.bare Path.root = some Node.emptyDirectory := by
  rw [bare_eq_directory_iff]
  unfold checkRoot
  split
  · next children hdir => simp [hdir]
  · next content hfile => simp [hfile]
  · next hnone => simp [hnone]

theorem parentFault?_eq_none_iff {tree : Tree} {path : Text} :
    tree.parentFault? path = none
      ↔ path = Path.root ∨ tree.bare (Path.parent path) = some Node.emptyDirectory := by
  rw [bare_eq_directory_iff]
  unfold parentFault?
  split
  · next hroot => simp [hroot]
  · next hroot =>
    split
    · next children hdir => simp [hdir]
    · next content hfile => simp [hfile, hroot]
    · next hnone => simp [hnone, hroot]

theorem mem_keys_iff {tree : Tree} {path : Text} : path ∈ tree.nodes.keys ↔ tree.has path = true := by
  rw [Std.ExtTreeMap.mem_keys, Std.ExtTreeMap.mem_iff_isSome_getElem?]
  rfl

/-- The last pass is entered exactly if every path lies in a directory. -/
theorem linkChildren_eq_ok_iff {tree tree' : Tree} :
    tree.linkChildren = .ok tree'
      ↔ (∀ path, tree.has path = true → path ≠ Path.root →
          tree.bare (Path.parent path) = some Node.emptyDirectory)
        ∧ tree' = tree.nodes.keys.foldl enterInParent tree := by
  unfold linkChildren
  dsimp only
  split
  · next fault hfault =>
    obtain ⟨path, hpath, hsome⟩ := List.exists_of_findSome?_eq_some hfault
    constructor
    · intro h
      cases h
    · rintro ⟨hparent, -⟩
      -- a path that lies in a directory has no fault
      have hnone : tree.parentFault? path = none := by
        rw [parentFault?_eq_none_iff]
        by_cases hroot : path = Path.root
        · exact .inl hroot
        · exact .inr (hparent path (mem_keys_iff.mp hpath) hroot)
      rw [hnone] at hsome
      cases hsome
  · next hnone =>
    rw [List.findSome?_eq_none_iff] at hnone
    rw [Except.ok.injEq, eq_comm]
    constructor
    · rintro rfl
      refine ⟨fun path hpath hroot => ?_, rfl⟩
      exact (parentFault?_eq_none_iff.mp (hnone path (mem_keys_iff.mpr hpath))).resolve_left hroot
    · rintro ⟨-, rfl⟩
      rfl

/-- The passes behind the first one lead to a well-formed tree with the same bare nodes. -/
theorem Unlinked.wellFormed_linkChildren {tree tree' : Tree} (h : tree.Unlinked)
    (hroot : tree.bare Path.root = some Node.emptyDirectory)
    (hok : tree.linkChildren = .ok tree') :
    tree'.WellFormed ∧ ∀ q, tree'.bare q = tree.bare q := by
  obtain ⟨hparent, rfl⟩ := linkChildren_eq_ok_iff.mp hok
  have hbare := bare_foldl_enterInParent tree tree.nodes.keys
  have hhas : ∀ q, (tree.nodes.keys.foldl enterInParent tree).has q = tree.has q := by
    intro q
    rw [← isSome_bare, hbare, isSome_bare]
  refine ⟨wellFormed_iff.mpr ⟨⟨?_, fun q hq => ?_, fun q hq hne => ?_⟩, ?_⟩, hbare⟩
  · rw [hbare, hroot]
  · exact h.isNormal q (by rwa [hhas] at hq)
  · rw [hbare]
    exact hparent q (by rwa [hhas] at hq) hne
  · intro directory children hdir q
    obtain ⟨before, hbefore, hmem⟩ := get?_foldl_enterInParent hdir
    -- before the last pass no directory has children
    have hnil := h.emptied_eq directory _ hbefore
    simp only [emptied, Node.emptyDirectory, Node.directory.injEq] at hnil
    subst hnil
    rw [hmem, mem_keys_iff, hhas]
    constructor
    · rintro (hq | ⟨hq, hne, hpar⟩)
      · exact absurd hq Std.ExtTreeSet.not_mem_empty
      · exact ⟨hne, hq, hpar⟩
    · rintro ⟨hne, hq, hpar⟩
      exact .inr ⟨hq, hne, hpar⟩

/-- A snapshot is accepted if its nodes are, its root is a directory and every path lies in one. -/
theorem ofSnapshot_eq_ok {snapshot : Snapshot} {tree : Tree} (hok : ofSnapshot snapshot = .ok tree) :
    ∃ entries raw, snapshot = .mapping entries ∧
      entries.foldlM Tree.readEntry ⟨∅⟩ = .ok raw ∧
        raw.bare Path.root = some Node.emptyDirectory ∧ raw.linkChildren = .ok tree := by
  cases snapshot with
  | notAMapping => cases hok
  | mapping entries =>
    rw [ofSnapshot, Result.mapError_eq_ok_iff] at hok
    unfold ofEntries at hok
    obtain ⟨raw, hraw, hrest⟩ := Result.bind_eq_ok_iff.mp hok
    obtain ⟨⟨⟩, hroot, hlink⟩ := Result.bind_eq_ok_iff.mp hrest
    exact ⟨entries, raw, rfl, hraw, checkRoot_eq_ok_iff.mp hroot, hlink⟩

theorem wellFormed_ofSnapshot {snapshot : Snapshot} {tree : Tree}
    (hok : ofSnapshot snapshot = .ok tree) : tree.WellFormed := by
  obtain ⟨entries, raw, -, hraw, hroot, hlink⟩ := ofSnapshot_eq_ok hok
  exact ((unlinked_nil.foldlM_readEntry hraw).wellFormed_linkChildren hroot hlink).1

theorem holdsTexts_ofSnapshot {snapshot : Snapshot} {tree : Tree}
    (hok : ofSnapshot snapshot = .ok tree) : tree.HoldsTexts := by
  obtain ⟨entries, raw, -, hraw, hroot, hlink⟩ := ofSnapshot_eq_ok hok
  have hunlinked := unlinked_nil.foldlM_readEntry hraw
  have hbare := (hunlinked.wellFormed_linkChildren hroot hlink).2
  refine holdsTexts_iff.mpr fun path node hnode => ?_
  exact holdsTexts_iff.mp hunlinked.holdsTexts path node (by rwa [hbare] at hnode)

end LivePreview.Tree
