/-
  LivePreview.Proofs.Tree.Listing
  ───────────────────────────────
  **A tree can be followed by its changes alone.**

  A follower keeps a listing, the paths of a tree with their kinds, and never looks at
  the tree again.  It takes a change only where the listing admits it
  (`Listing.Admits`): what is created is new and comes into a listed directory, what is
  deleted or modified is listed with its kind, and what is renamed comes to a place
  within which nothing is listed.  Of a renamed node it moves everything within its path
  (`Listing.enter`).

  Between two changes of one edit there need not be a tree with such a listing: a
  directory is deleted in front of what lies in it.  At the end of the edit there is one:

      listing of the tree  ⊢ changes of the edit ⊢  listing of the tree behind it
                                                              (`Shows.leads_attempt`)
-/
import LivePreview.Proofs.Tree.Reachable

namespace LivePreview.Tree

open LivePreview.Path (IsNormal names ancestors)

/-! ## §1. Listings -/

/-- The kind of the node at a path in normal form. -/
def kind? (tree : Tree) (path : Text) : Option NodeKind :=
  (tree.get? path).map Node.kind

/-- Paths with their kinds. -/
abbrev Listing := Table NodeKind

namespace Listing

/-- Where a path comes to when one directory is moved. -/
def moved (old new path : Text) : Text :=
  if Path.isWithin path old then Path.rebase path old new else path

/-- The change can be entered. -/
def Admits (listing : Listing) : Change → Prop
  | .created path _ => path ∉ Table.keys listing ∧ (Path.parent path, .directory) ∈ listing
  | .modified path => (path, .file) ∈ listing
  | .deleted path kind => (path, kind) ∈ listing
  | .renamed old kind new =>
    (old, kind) ∈ listing ∧ (Path.parent new, .directory) ∈ listing ∧
      ∀ path ∈ Table.keys listing, Path.isWithin path new = false

instance (listing : Listing) : DecidablePred listing.Admits
  | .created path _ => inferInstanceAs (Decidable (path ∉ Table.keys listing ∧ _))
  | .modified path => inferInstanceAs (Decidable ((path, NodeKind.file) ∈ listing))
  | .deleted path kind => inferInstanceAs (Decidable ((path, kind) ∈ listing))
  | .renamed old kind _ => inferInstanceAs (Decidable ((old, kind) ∈ listing ∧ _ ∧ _))

/-- Enter a change. -/
def enter (listing : Listing) : Change → Listing
  | .created path kind => listing ++ [(path, kind)]
  | .modified _ => listing
  | .deleted path _ => listing.filter fun entry => entry.1 != path
  | .renamed old _ new => listing.map fun entry => (moved old new entry.1, entry.2)

/-- Enter a change, if it is admitted. -/
def take? (listing : Listing) (change : Change) : Option Listing :=
  if listing.Admits change then some (listing.enter change) else none

/-- Enter changes from left to right; `none` if one of them is not admitted when it comes. -/
def follow? (listing : Listing) (changes : List Change) : Option Listing :=
  changes.foldlM take? listing

/-- The entries are the paths of a tree, each once and with its kind. -/
structure Shows (listing : Listing) (tree : Tree) : Prop where
  nodup : (Table.keys listing).Nodup
  mem_iff : ∀ path kind, (path, kind) ∈ listing ↔ tree.kind? path = some kind

/-- The changes are admitted one after the other, and the listing behind them shows a tree. -/
def Leads (listing : Listing) (changes : List Change) (tree : Tree) : Prop :=
  ∃ after, listing.follow? changes = some after ∧ after.Shows tree

end Listing

/-- The listing of a tree, in ascending order. -/
def listing (tree : Tree) : Listing :=
  tree.toList.map fun (path, node) => (path, node.kind)

/-! ## §2. What a listing shows -/

theorem kind?_eq_bare (tree : Tree) (path : Text) : tree.kind? path = (tree.bare path).map Node.kind := by
  have hkind : Node.kind ∘ emptied = Node.kind := by
    funext node
    cases node <;> rfl
  unfold kind? bare
  rw [Option.map_map, hkind]

theorem isSome_kind? (tree : Tree) (path : Text) : (tree.kind? path).isSome = tree.has path := by
  unfold kind? has
  rw [Option.isSome_map]

theorem kind?_eq_directory_iff {tree : Tree} {path : Text} :
    tree.kind? path = some .directory ↔ tree.bare path = some Node.emptyDirectory := by
  unfold kind? bare
  cases tree.get? path with
  | none => simp
  | some node => cases node <;> simp [Node.kind, emptied, Node.emptyDirectory]

theorem shows_listing (tree : Tree) : tree.listing.Shows tree := by
  have hkeys : Table.keys tree.listing = tree.nodes.keys := by
    unfold Table.keys listing toList
    rw [List.map_map]
    exact Std.ExtTreeMap.map_fst_toList_eq_keys
  refine ⟨hkeys ▸ Std.ExtTreeMap.nodup_keys, fun path kind => ?_⟩
  unfold listing kind?
  rw [List.mem_map, Option.map_eq_some_iff]
  constructor
  · rintro ⟨⟨other, node⟩, hmem, heq⟩
    obtain ⟨rfl, rfl⟩ := Prod.mk.inj heq
    exact ⟨node, mem_toList_iff.mp hmem, rfl⟩
  · rintro ⟨node, hnode, rfl⟩
    exact ⟨(path, node), mem_toList_iff.mpr hnode, rfl⟩

namespace Listing

variable {listing : Listing} {tree : Tree}

theorem Shows.mem_keys_iff (h : listing.Shows tree) {path : Text} :
    path ∈ Table.keys listing ↔ tree.has path = true := by
  unfold Table.keys
  rw [List.mem_map, ← isSome_kind?, Option.isSome_iff_exists]
  constructor
  · rintro ⟨⟨other, kind⟩, hmem, rfl⟩
    exact ⟨kind, (h.mem_iff _ _).mp hmem⟩
  · rintro ⟨kind, hkind⟩
    exact ⟨(path, kind), (h.mem_iff _ _).mpr hkind, rfl⟩

/-- A listing shows nothing but the kinds. -/
theorem Shows.congr (h : listing.Shows tree) {other : Tree}
    (hsame : ∀ path, other.kind? path = tree.kind? path) : listing.Shows other :=
  ⟨h.nodup, fun path kind => by rw [hsame]; exact h.mem_iff path kind⟩

/-! ## §3. Sequences of changes -/

theorem leads_nil (h : listing.Shows tree) : listing.Leads [] tree :=
  ⟨listing, rfl, h⟩

theorem leads_cons {change : Change} {changes : List Change} (hadmits : listing.Admits change)
    (h : (listing.enter change).Leads changes tree) : listing.Leads (change :: changes) tree := by
  obtain ⟨after, hafter, hshows⟩ := h
  refine ⟨after, ?_, hshows⟩
  unfold follow? at hafter ⊢
  rw [List.foldlM_cons, take?, if_pos hadmits]
  exact hafter

theorem leads_singleton {change : Change} (hadmits : listing.Admits change)
    (h : (listing.enter change).Shows tree) : listing.Leads [change] tree :=
  leads_cons hadmits (leads_nil h)

theorem Leads.append {changes more : List Change} {other : Tree} (h : listing.Leads changes tree)
    (hmore : ∀ after : Listing, after.Shows tree → after.Leads more other) :
    listing.Leads (changes ++ more) other := by
  obtain ⟨between, hbetween, hshows⟩ := h
  obtain ⟨after, hafter, hother⟩ := hmore between hshows
  refine ⟨after, ?_, hother⟩
  unfold follow? at hbetween hafter ⊢
  rw [List.foldlM_append, hbetween]
  exact hafter

theorem Leads.congr {changes : List Change} (h : listing.Leads changes tree) {other : Tree}
    (hsame : ∀ path, other.kind? path = tree.kind? path) : listing.Leads changes other := by
  obtain ⟨after, hafter, hshows⟩ := h
  exact ⟨after, hafter, hshows.congr hsame⟩

/-! ## §4. Created nodes -/

theorem kind?_attach (tree : Tree) (path : Text) (node : Node) (q : Text) :
    (tree.attach path node).kind? q = if q = path then some node.kind else tree.kind? q := by
  rw [kind?_eq_bare, kind?_eq_bare, bare_attach]
  split
  · cases node <;> rfl
  · rfl

theorem Shows.created (h : listing.Shows tree) {path : Text} (hfree : tree.has path = false)
    (node : Node) : (listing.enter (.created path node.kind)).Shows (tree.attach path node) := by
  have hnew : path ∉ Table.keys listing := by
    rw [h.mem_keys_iff, hfree]
    exact Bool.false_ne_true
  refine ⟨?_, fun q kind => ?_⟩
  · show ((listing ++ [(path, node.kind)]).map Prod.fst).Nodup
    rw [List.map_append, List.nodup_append_comm]
    exact List.nodup_cons.mpr ⟨hnew, h.nodup⟩
  · -- the new path was free, so an old entry for it cannot stand beside the new one
    show (q, kind) ∈ listing ++ [(path, node.kind)] ↔ _
    rw [List.mem_append, List.mem_singleton, Prod.mk.injEq, h.mem_iff, kind?_attach]
    by_cases hq : q = path
    · subst hq
      have hnone : tree.kind? q = none := by
        rw [← Option.not_isSome_iff_eq_none, isSome_kind?, hfree]
        exact Bool.false_ne_true
      simp [hnone, eq_comm]
    · simp [hq]

/-- Nodes that are attached from left to right are announced in this order. -/
theorem Shows.leads_created (h : listing.Shows tree) {nodes : List (Text × Node)}
    (hnodes : tree.Attachable nodes) :
    listing.Leads (nodes.map fun (path, node) => .created path node.kind) (tree.attachAll nodes) := by
  unfold attachAll
  -- by induction on the nodes; the listing and the tree go on together
  induction nodes generalizing listing tree with
  | nil => exact leads_nil h
  | cons entry nodes ih =>
    obtain ⟨path, node⟩ := entry
    obtain ⟨-, -, hfree, hparent⟩ := hnodes.head
    refine leads_cons ⟨?_, (h.mem_iff _ _).mpr (kind?_eq_directory_iff.mpr hparent)⟩
      (ih (h.created hfree node) hnodes.tail)
    rw [h.mem_keys_iff, hfree]
    exact Bool.false_ne_true

/-- The directories above a path that do not exist yet are announced as they are made. -/
theorem Shows.leads_missing (h : listing.Shows tree) (hformed : tree.WellFormed) {path : Text}
    {missing : List Text} (hpath : IsNormal path) (hmissing : tree.missingAncestors path = .ok missing) :
    listing.Leads (createdDirectories missing) (tree.attachDirectories missing) := by
  have hleads := h.leads_created (hformed.attachable_missing hmissing hpath)
  rw [List.map_map] at hleads
  rw [attachDirectories_eq_attachAll]
  exact hleads

/-- So is a node behind them, at a path that was free. -/
theorem Shows.leads_attach_missing (h : listing.Shows tree) (hformed : tree.WellFormed) {path : Text}
    {missing : List Text} (hpath : IsNormal path) (hmissing : tree.missingAncestors path = .ok missing)
    (hfree : tree.has path = false) (node : Node) :
    listing.Leads (createdDirectories missing ++ [.created path node.kind])
      ((tree.attachDirectories missing).attach path node) := by
  refine (h.leads_missing hformed hpath hmissing).append fun after hafter => ?_
  -- making the directories above the path has neither taken it nor left it without a parent
  have hstill : (tree.attachDirectories missing).has path = false := by
    rw [has_attachDirectories_missing hmissing, hfree, Bool.or_false, decide_eq_false_iff_not]
    exact fun hmem => (hpath.mem_ancestors_iff.mp hmem).2.2 rfl
  have hparent : (tree.attachDirectories missing).bare (Path.parent path) = some Node.emptyDirectory := by
    rw [bare_attachDirectories_missing hmissing,
      if_pos (hpath.parent_mem_ancestors (hformed.ne_root_of_free hfree))]
  refine leads_singleton ⟨?_, (hafter.mem_iff _ _).mpr (kind?_eq_directory_iff.mpr hparent)⟩
    (hafter.created hstill node)
  rw [hafter.mem_keys_iff, hstill]
  exact Bool.false_ne_true

/-! ## §5. Deleted nodes -/

theorem kind?_detach (tree : Tree) (path q : Text) :
    (tree.detach path).kind? q = if q = path then none else tree.kind? q := by
  rw [kind?_eq_bare, kind?_eq_bare, bare_detach]
  split <;> rfl

theorem Shows.deleted (h : listing.Shows tree) (path : Text) (kind : NodeKind) :
    (listing.enter (.deleted path kind)).Shows (tree.detach path) := by
  refine ⟨?_, fun q other => ?_⟩
  · exact h.nodup.sublist (List.filter_sublist.map Prod.fst)
  · show (q, other) ∈ listing.filter (fun entry => entry.1 != path) ↔ _
    rw [List.mem_filter, h.mem_iff, kind?_detach]
    by_cases hq : q = path <;> simp [hq]

/-- Nodes may be announced as deleted in any order. -/
theorem Shows.leads_deleted (h : listing.Shows tree) {kinds : Text → NodeKind} {paths : List Text}
    (hnodup : paths.Nodup) (hkinds : ∀ path ∈ paths, tree.kind? path = some (kinds path)) :
    listing.Leads (paths.map fun path => .deleted path (kinds path)) (tree.detachAll paths) := by
  unfold detachAll
  induction paths generalizing listing tree with
  | nil => exact leads_nil h
  | cons path paths ih =>
    obtain ⟨hfirst, hnodup⟩ := List.nodup_cons.mp hnodup
    rw [List.forall_mem_cons] at hkinds
    refine leads_cons ((h.mem_iff _ _).mpr hkinds.1) (ih (h.deleted path _) hnodup fun q hq => ?_)
    -- no path is deleted twice, so the later ones are still there
    have hne : q ≠ path := fun heq => hfirst (heq ▸ hq)
    rw [kind?_detach, if_neg hne]
    exact hkinds.2 q hq

theorem kind?_eq_kindAt {path : Text} (hhas : tree.has path = true) :
    tree.kind? path = some (tree.kindAt path) := by
  obtain ⟨node, hnode⟩ := has_eq_true_iff.mp hhas
  unfold kind? kindAt
  rw [hnode]
  rfl

/-- Whether a list of paths is taken away from the left or from the right makes no difference to the
kinds. -/
theorem kind?_detachAll_reverse (tree : Tree) (paths : List Text) (q : Text) :
    (tree.detachAll paths.reverse).kind? q = (tree.detachAll paths).kind? q := by
  rw [kind?_eq_bare, kind?_eq_bare, bare_detachAll, bare_detachAll]
  simp only [List.mem_reverse]

theorem Shows.leads_deleteAt (h : listing.Shows tree) (hformed : tree.WellFormed) {path : Text}
    (hhas : tree.has path = true) :
    listing.Leads ((tree.deleteAt path).changes?.getD []) (tree.deleteAt path).tree := by
  refine Leads.congr (h.leads_deleted (hformed.subtree_nodup hhas) fun q hq => ?_)
    (kind?_detachAll_reverse tree _)
  exact kind?_eq_kindAt ((hformed.mem_subtree_iff hhas).mp hq).1

/-! ## §6. Renamed nodes -/

section Rename

variable {old new : Text} {missing : List Text}

/-- A moved path is within the new one, and a path within the new one has been moved. -/
theorem isWithin_moved_iff (hold : IsNormal old) (hnew : IsNormal new) (hroot : old ≠ Path.root)
    {path : Text} (hpath : IsNormal path) (houtside : Path.isWithin path new = false) :
    Path.isWithin (moved old new path) new = Path.isWithin path old := by
  unfold moved
  split
  · next hwithin => rw [Path.isWithin_rebase hpath hold hnew hroot hwithin, hwithin]
  · next hwithin => rw [houtside, Bool.eq_false_iff.mpr hwithin]

/-- Different paths outside of the new one come to different places. -/
theorem moved_injective (hold : IsNormal old) (hnew : IsNormal new) (hroot : old ≠ Path.root)
    {p q : Text} (hp : IsNormal p) (hq : IsNormal q) (hpnew : Path.isWithin p new = false)
    (hqnew : Path.isWithin q new = false) (heq : moved old new p = moved old new q) : p = q := by
  have hsame : Path.isWithin p old = Path.isWithin q old := by
    rw [← isWithin_moved_iff hold hnew hroot hp hpnew, heq,
      isWithin_moved_iff hold hnew hroot hq hqnew]
  unfold moved at heq
  cases hpold : Path.isWithin p old with
  | true =>
    rw [hpold] at hsame
    rw [hpold, ← hsame, if_pos rfl, if_pos rfl] at heq
    exact Path.rebase_injective hold hnew hroot hp hq hpold hsame.symm heq
  | false =>
    rw [hpold] at hsame
    rwa [hpold, ← hsame, if_neg Bool.false_ne_true, if_neg Bool.false_ne_true] at heq

variable (hformed : tree.WellFormed) (hmove : tree.Movable old new missing)
include hformed hmove

/-- With the directories above the new path there is nothing within it. -/
theorem has_attachDirectories_within {q : Text} (hwithin : Path.isWithin q new = true) :
    (tree.attachDirectories missing).has q = false := by
  have hnew := hmove.isNormal_new
  rw [Bool.eq_false_iff]
  intro hhas
  have hself := (hformed.attachDirectories_missing hmove.missingAncestors hnew).has_of_isWithin hhas
    hnew hwithin
  rw [has_attachDirectories_missing hmove.missingAncestors, hmove.free, Bool.or_false,
    decide_eq_true_eq] at hself
  exact (hnew.mem_ancestors_iff.mp hself).2.2 rfl

theorem isWithin_new_eq_false {p : Text} (hhas : (tree.attachDirectories missing).has p = true) :
    Path.isWithin p new = false := by
  rw [Bool.eq_false_iff]
  intro hwithin
  rw [has_attachDirectories_within hformed hmove hwithin] at hhas
  cases hhas

/-- A node keeps its kind where it comes to. -/
theorem kind?_renameAt_moved {kind : NodeKind} {p : Text}
    (hhas : (tree.attachDirectories missing).has p = true) :
    (tree.renameAt old new kind missing).tree.kind? (moved old new p)
      = (tree.attachDirectories missing).kind? p := by
  have hold := hformed.isNormal_old hmove
  have hnew := hmove.isNormal_new
  have hp := (hformed.attachDirectories_missing hmove.missingAncestors hnew).grounded.isNormal p hhas
  have houtside := isWithin_new_eq_false hformed hmove hhas
  rw [kind?_eq_bare, kind?_eq_bare, bare_attachDirectories_missing hmove.missingAncestors]
  unfold moved
  cases hwithin : Path.isWithin p old with
  | true =>
    -- a directory above the new path is not within the old one, or the move would be refused
    have hnotabove : p ∉ ancestors new := by
      intro hmem
      rw [hformed.not_within_of_mem_ancestors hmove hmem] at hwithin
      cases hwithin
    rw [if_pos rfl, if_neg hnotabove, hformed.bare_renameAt hmove kind
        (Path.isNormal_rebase hp hold hnew hmove.old_ne_root hwithin),
      if_pos (Path.isWithin_rebase hp hold hnew hmove.old_ne_root hwithin),
      Path.rebase_rebase hp hold hnew hmove.old_ne_root hwithin (hformed.new_ne_root hmove)]
  | false =>
    rw [if_neg Bool.false_ne_true, hformed.bare_renameAt hmove kind hp, houtside, hwithin,
      if_neg Bool.false_ne_true, if_neg Bool.false_ne_true]

/-- Whatever stands in the tree behind the rename came from somewhere. -/
theorem exists_moved_of_has_renameAt {kind : NodeKind} {q : Text}
    (hhas : (tree.renameAt old new kind missing).tree.has q = true) :
    ∃ p, (tree.attachDirectories missing).has p = true ∧ moved old new p = q := by
  have hold := hformed.isNormal_old hmove
  have hnew := hmove.isNormal_new
  have hq := (hformed.renameAt hmove kind).grounded.isNormal q hhas
  rw [← isSome_bare, hformed.bare_renameAt hmove kind hq] at hhas
  by_cases hwithin : Path.isWithin q new = true
  · -- it came from within the old path
    rw [if_pos hwithin, isSome_bare] at hhas
    have hback := Path.isWithin_rebase hq hnew hold (hformed.new_ne_root hmove) hwithin
    refine ⟨Path.rebase q new old, ?_, ?_⟩
    · rw [has_attachDirectories_missing hmove.missingAncestors, hhas, Bool.or_true]
    · rw [moved, if_pos hback,
        Path.rebase_rebase hq hnew hold (hformed.new_ne_root hmove) hwithin hmove.old_ne_root]
  · -- it has stayed where it was, and within the old path nothing has
    rw [if_neg hwithin] at hhas
    by_cases hqold : Path.isWithin q old = true
    · rw [if_pos hqold] at hhas
      cases hhas
    · rw [if_neg hqold] at hhas
      refine ⟨q, ?_, by rw [moved, if_neg hqold]⟩
      rwa [← isSome_bare, bare_attachDirectories_missing hmove.missingAncestors]

theorem Shows.renamed (h : listing.Shows (tree.attachDirectories missing)) (kind : NodeKind) :
    (listing.enter (.renamed old kind new)).Shows (tree.renameAt old new kind missing).tree := by
  have hold := hformed.isNormal_old hmove
  have hnew := hmove.isNormal_new
  have hmade := hformed.attachDirectories_missing hmove.missingAncestors hnew
  have hoff : ∀ p ∈ Table.keys listing, IsNormal p ∧ Path.isWithin p new = false := by
    intro p hp
    have hhas := h.mem_keys_iff.mp hp
    exact ⟨hmade.grounded.isNormal p hhas, isWithin_new_eq_false hformed hmove hhas⟩
  refine ⟨?_, fun q other => ?_⟩
  · show ((listing.map fun entry => (moved old new entry.1, entry.2)).map Prod.fst).Nodup
    have hkeys : (listing.map fun entry => (moved old new entry.1, entry.2)).map Prod.fst
        = (Table.keys listing).map (moved old new) := by
      unfold Table.keys
      rw [List.map_map, List.map_map]
      rfl
    rw [hkeys]
    refine h.nodup.map_on fun a ha b hb heq => ?_
    exact moved_injective hold hnew hmove.old_ne_root (hoff a ha).1 (hoff b hb).1 (hoff a ha).2
      (hoff b hb).2 heq
  · show (q, other) ∈ listing.map (fun entry => (moved old new entry.1, entry.2)) ↔ _
    rw [List.mem_map]
    constructor
    · rintro ⟨⟨p, found⟩, hmem, heq⟩
      obtain ⟨rfl, rfl⟩ := Prod.mk.inj heq
      have hkind := (h.mem_iff p found).mp hmem
      have hhas : (tree.attachDirectories missing).has p = true := by
        rw [← isSome_kind?, hkind, Option.isSome_some]
      rw [kind?_renameAt_moved hformed hmove hhas, hkind]
    · intro hkind
      have hhas : (tree.renameAt old new kind missing).tree.has q = true := by
        rw [← isSome_kind?, hkind, Option.isSome_some]
      obtain ⟨p, hphas, rfl⟩ := exists_moved_of_has_renameAt hformed hmove hhas
      rw [kind?_renameAt_moved hformed hmove hphas] at hkind
      exact ⟨(p, other), (h.mem_iff p other).mpr hkind, rfl⟩

theorem Shows.leads_renameAt (h : listing.Shows tree) {kind : NodeKind}
    (hkind : tree.kind? old = some kind) :
    listing.Leads ((tree.renameAt old new kind missing).changes?.getD [])
      (tree.renameAt old new kind missing).tree := by
  have hnew := hmove.isNormal_new
  refine (h.leads_missing hformed hnew hmove.missingAncestors).append fun after hafter => ?_
  have hbare := bare_attachDirectories_missing hmove.missingAncestors
  have hparent : (tree.attachDirectories missing).bare (Path.parent new) = some Node.emptyDirectory := by
    rw [hbare, if_pos (hnew.parent_mem_ancestors (hformed.new_ne_root hmove))]
  -- the old path is none of the directories that have been made, and keeps its kind
  have hnotabove : old ∉ ancestors new := by
    intro hmem
    have hself := hformed.not_within_of_mem_ancestors hmove hmem
    rw [(hformed.isNormal_old hmove).isWithin_self] at hself
    cases hself
  refine leads_singleton ⟨?_, (hafter.mem_iff _ _).mpr (kind?_eq_directory_iff.mpr hparent),
    fun q hq => ?_⟩ (Shows.renamed hformed hmove hafter kind)
  · refine (hafter.mem_iff _ _).mpr ?_
    rw [kind?_eq_bare, hbare, if_neg hnotabove, ← kind?_eq_bare, hkind]
  · exact isWithin_new_eq_false hformed hmove (hafter.mem_keys_iff.mp hq)

end Rename

/-! ## §7. Modified files -/

theorem Shows.leads_insert_file (h : listing.Shows tree) {path : Text} {current : Json}
    (hfile : tree.get? path = some (.file current)) (content : Json) :
    listing.Leads [.modified path] ⟨tree.nodes.insert path (.file content)⟩ := by
  have hkind : tree.kind? path = some .file := by
    unfold kind?
    rw [hfile]
    rfl
  refine leads_singleton ((h.mem_iff _ _).mpr hkind) (h.congr fun q => ?_)
  unfold kind?
  rw [get?_insert]
  split
  · next heq => rw [heq, hfile]; rfl
  · rfl

/-! ## §8. Replaced trees -/

theorem mem_underRoot_iff {path : Text} {node : Node} :
    (path, node) ∈ tree.underRoot ↔ tree.get? path = some node ∧ path ≠ Path.root := by
  unfold underRoot
  rw [List.mem_filter, mem_toList_iff, bne_iff_ne]

theorem nodup_underRoot (tree : Tree) : (tree.underRoot.map Prod.fst).Nodup := by
  have hkeys : (tree.toList.map Prod.fst).Nodup := by
    unfold toList
    rw [Std.ExtTreeMap.map_fst_toList_eq_keys]
    exact Std.ExtTreeMap.nodup_keys
  exact hkeys.sublist (List.filter_sublist.map Prod.fst)

/-- A path that is neither the root nor under it is free. -/
theorem bare_eq_none_of_not_mem_underRoot {q : Text} (hroot : q ≠ Path.root)
    (hq : q ∉ tree.underRoot.map Prod.fst) : tree.bare q = none := by
  rw [bare_eq_none_iff, Bool.eq_false_iff]
  intro hhas
  obtain ⟨node, hnode⟩ := has_eq_true_iff.mp hhas
  exact hq (List.mem_map.mpr ⟨(q, node), mem_underRoot_iff.mpr ⟨hnode, hroot⟩, rfl⟩)

theorem bare_empty (q : Text) :
    Tree.empty.bare q = if q = Path.root then some Node.emptyDirectory else none := by
  rw [bare, get?_empty]
  split <;> rfl

/-- With everything under its root a tree loses all that distinguishes it from the empty one. -/
theorem bare_detachAll_underRoot (h : tree.WellFormed) (q : Text) :
    (tree.detachAll (tree.underRoot.map Prod.fst)).bare q = Tree.empty.bare q := by
  rw [bare_detachAll, bare_empty]
  by_cases hroot : q = Path.root
  · have hstays : q ∉ tree.underRoot.map Prod.fst := by
      rintro hmem
      obtain ⟨⟨path, node⟩, hnode, rfl⟩ := List.mem_map.mp hmem
      exact (mem_underRoot_iff.mp hnode).2 hroot
    rw [if_neg hstays, if_pos hroot, hroot, h.grounded.root_bare]
  · rw [if_neg hroot]
    split
    · rfl
    · next hother => exact bare_eq_none_of_not_mem_underRoot hroot hother

/-- A path comes behind its directory. -/
theorem compare_parent {path : Text} (hpath : IsNormal path) (hroot : path ≠ Path.root) :
    compare (Path.parent path) path = .lt := by
  obtain ⟨name, hname⟩ := hpath.exists_names_eq_concat hroot
  have hpoints : path.points = Path.trail (names (Path.parent path)) ++ Path.slash :: name := by
    rw [hpath.points_eq_trail hroot, hname, Path.trail_append, Path.trail_cons, Path.trail_nil,
      List.append_nil]
  show compare (Path.parent path).points path.points = .lt
  by_cases htop : Path.parent path = Path.root
  · -- the text of the root is a slash, and not the trail of its names
    have hself : Path.IsName name :=
      Path.areNames_names path name (by rw [hname]; exact List.mem_append_right _ List.mem_cons_self)
    obtain ⟨front, point, rfl, -⟩ := hself.exists_concat
    rw [hpoints, htop]
    show compare [Path.slash] (Path.slash :: (front ++ [point])) = .lt
    rw [List.compare_cons_cons, Std.ReflOrd.compare_self]
    cases front <;> rfl
  · rw [hpoints, hpath.parent.points_eq_trail htop]
    exact compare_append_cons _ _ _

theorem ordered_underRoot (tree : Tree) :
    tree.underRoot.Pairwise fun a b => compare a.1 b.1 = .lt :=
  Std.ExtTreeMap.ordered_keys_toList.filter _

/-- The nodes under the root of a tree, in ascending order, can be put into what has become empty. -/
theorem attachable_underRoot {new : Tree} (hnew : new.WellFormed)
    (hempty : ∀ q, tree.bare q = Tree.empty.bare q) :
    tree.Attachable (new.underRoot.map fun (path, node) => (path, emptied node)) := by
  have hbare : ∀ q, tree.bare q = if q = Path.root then some Node.emptyDirectory else none :=
    fun q => (hempty q).trans (bare_empty q)
  intro before path node behind hsplit
  obtain ⟨front, rest, hnodes, rfl, hcons⟩ := List.map_eq_append_iff.mp hsplit
  obtain ⟨⟨path', original⟩, back, rfl, heq, rfl⟩ := List.map_eq_cons_iff.mp hcons
  obtain ⟨rfl, rfl⟩ := Prod.mk.inj heq
  have hmem : (path', original) ∈ new.underRoot := by
    rw [hnodes]
    exact List.mem_append_right _ List.mem_cons_self
  obtain ⟨hget, hroot⟩ := mem_underRoot_iff.mp hmem
  have hnormal := hnew.isNormal path' original hget
  have hordered := ordered_underRoot new
  rw [hnodes, List.pairwise_append, List.pairwise_cons] at hordered
  refine ⟨hnormal, Node.emptied_emptied original, ?_, ?_, ?_⟩
  · rw [← isSome_bare, hbare, if_neg hroot, Option.isSome_none]
  · -- whatever comes in front of a path is less
    rw [List.map_map]
    intro hfront
    obtain ⟨⟨q, other⟩, hq, rfl⟩ := List.mem_map.mp hfront
    have hless := hordered.2.2 _ hq _ List.mem_cons_self
    rw [Function.comp_apply, Std.ReflOrd.compare_self] at hless
    cases hless
  · by_cases htop : Path.parent path' = Path.root
    · exact .inl (by rw [hbare, if_pos htop])
    · -- the directory is in the list, and less than what lies in it
      refine .inr (List.mem_map.mpr ?_)
      obtain ⟨children, hdir⟩ := hnew.parent_isDirectory path' original hget hroot
      have hparent : (Path.parent path', Node.directory children) ∈ new.underRoot :=
        mem_underRoot_iff.mpr ⟨hdir, htop⟩
      refine ⟨(Path.parent path', .directory children), ?_, rfl⟩
      rw [hnodes, List.mem_append, List.mem_cons] at hparent
      have hless := compare_parent hnormal hroot
      rcases hparent with hfront | heq | hbehind
      · exact hfront
      · rw [(Prod.mk.inj heq).1, Std.ReflOrd.compare_self] at hless
        cases hless
      · have hgreater := hordered.2.1.1 _ hbehind
        rw [Std.OrientedOrd.eq_swap, hless] at hgreater
        cases hgreater

/-- What has become empty is the tree again when all nodes under its root have been put in. -/
theorem bare_attachAll_underRoot {new : Tree} (hnew : new.WellFormed)
    (hempty : ∀ q, tree.bare q = Tree.empty.bare q) (q : Text) :
    (tree.attachAll (new.underRoot.map fun (path, node) => (path, emptied node))).bare q = new.bare q := by
  have hkeys : (new.underRoot.map fun (path, node) => (path, emptied node)).map Prod.fst
      = new.underRoot.map Prod.fst := by
    rw [List.map_map]
    rfl
  by_cases hmem : q ∈ new.underRoot.map Prod.fst
  · obtain ⟨⟨path, node⟩, hnode, rfl⟩ := List.mem_map.mp hmem
    have hentry : (path, emptied node) ∈ new.underRoot.map fun (path, node) => (path, emptied node) :=
      List.mem_map.mpr ⟨_, hnode, rfl⟩
    rw [bare_attachAll_of_mem (hkeys ▸ nodup_underRoot new) hentry, Node.emptied_emptied, bare,
      (mem_underRoot_iff.mp hnode).1, Option.map_some]
  · rw [bare_attachAll_of_not_mem (hkeys ▸ hmem), hempty, bare_empty]
    by_cases hroot : q = Path.root
    · rw [if_pos hroot, hroot, hnew.grounded.root_bare]
    · rw [if_neg hroot, bare_eq_none_of_not_mem_underRoot hroot hmem]

/-- All that was there is announced as deleted, and then all that is there as created. -/
theorem Shows.leads_replace (h : listing.Shows tree) (hformed : tree.WellFormed) {new : Tree}
    (hnew : new.WellFormed) :
    listing.Leads (tree.underRoot.map (fun (path, node) => .deleted path node.kind)
      ++ new.underRoot.map (fun (path, node) => .created path node.kind)) new := by
  have hdeleted : tree.underRoot.map (fun (path, node) => Change.deleted path node.kind)
      = (tree.underRoot.map Prod.fst).map fun path => .deleted path (tree.kindAt path) := by
    rw [List.map_map]
    refine List.map_congr_left fun (path, node) hmem => ?_
    show Change.deleted path node.kind = .deleted path (tree.kindAt path)
    rw [kindAt, (mem_underRoot_iff.mp hmem).1]
    rfl
  have hcreated : new.underRoot.map (fun (path, node) => Change.created path node.kind)
      = (new.underRoot.map fun (path, node) => (path, emptied node)).map
        fun (path, node) => .created path node.kind := by
    rw [List.map_map]
    refine List.map_congr_left fun (path, node) _ => ?_
    cases node <;> rfl
  rw [hdeleted, hcreated]
  refine (h.leads_deleted (nodup_underRoot tree) fun path hpath => ?_).append fun after hafter => ?_
  · obtain ⟨⟨q, node⟩, hmem, rfl⟩ := List.mem_map.mp hpath
    exact kind?_eq_kindAt (has_eq_true_iff.mpr ⟨node, (mem_underRoot_iff.mp hmem).1⟩)
  · have hempty := bare_detachAll_underRoot hformed
    refine (hafter.leads_created (attachable_underRoot hnew hempty)).congr fun q => ?_
    rw [kind?_eq_bare, kind?_eq_bare, bare_attachAll_underRoot hnew hempty]

/-! ## §9. All edits -/

theorem Shows.leads_createFileAt (h : listing.Shows tree) (hformed : tree.WellFormed) {path : Text}
    (hpath : IsNormal path) {content : Json} {outcome : Outcome Text}
    (hok : tree.createFileAt path content = .ok outcome) :
    listing.Leads (outcome.changes?.getD []) outcome.tree := by
  obtain ⟨hfree, missing, hmissing, rfl⟩ := createFileAt_eq_ok hok
  exact h.leads_attach_missing hformed hpath hmissing hfree (.file content)

theorem Shows.leads_createDirectory (h : listing.Shows tree) (hformed : tree.WellFormed) {path : Text}
    {outcome : Outcome Text} (hok : tree.createDirectory path = .ok outcome) :
    listing.Leads (outcome.changes?.getD []) outcome.tree := by
  rcases createDirectory_eq_ok hok with ⟨children, -, rfl⟩ | ⟨hfree, missing, hmissing, rfl⟩
  · exact leads_nil h
  · have hleads := h.leads_attach_missing hformed (Path.isNormal_normalize path) hmissing hfree
      Node.emptyDirectory
    rw [← attachDirectories_concat] at hleads
    show listing.Leads (createdDirectories (missing ++ [Path.normalize path])) _
    unfold createdDirectories at hleads ⊢
    rw [List.map_append]
    exact hleads

theorem Shows.leads_writeFile (h : listing.Shows tree) (hformed : tree.WellFormed) {path : Text}
    {content : Json} {outcome : Outcome Text} (hok : tree.writeFile path content = .ok outcome) :
    listing.Leads (outcome.changes?.getD []) outcome.tree := by
  rcases writeFile_eq_ok hok with hcreate | ⟨current, hfile, ⟨-, rfl⟩ | ⟨-, rfl⟩⟩
  · exact h.leads_createFileAt hformed (Path.isNormal_normalize _) hcreate
  · exact leads_nil h
  · exact h.leads_insert_file hfile content

theorem Shows.leads_rename (h : listing.Shows tree) (hformed : tree.WellFormed) {oldPath newPath : Text}
    {outcome : Outcome Text} (hok : tree.rename oldPath newPath = .ok outcome) :
    listing.Leads (outcome.changes?.getD []) outcome.tree := by
  obtain ⟨source, missing, hsource, hmove, rfl⟩ := rename_eq_ok hok
  refine Shows.leads_renameAt hformed hmove h ?_
  unfold kind?
  rw [hsource]
  rfl

/-- **What an accepted edit announces leads from a listing of the tree to one of the tree behind it.** -/
theorem Shows.leads_attempt (h : listing.Shows tree) (hformed : tree.WellFormed) {edit : Edit}
    {outcome : Outcome Unit} (hok : tree.attempt edit = .ok outcome) :
    listing.Leads (outcome.changes?.getD []) outcome.tree := by
  cases edit with
  | createFile path content =>
    obtain ⟨outcome, hcreate, rfl⟩ := Result.map_eq_ok_iff.mp hok
    exact h.leads_createFileAt hformed (Path.isNormal_normalize path) hcreate
  | createDirectory path =>
    obtain ⟨outcome, hcreate, rfl⟩ := Result.map_eq_ok_iff.mp hok
    exact h.leads_createDirectory hformed hcreate
  | writeFile path content =>
    obtain ⟨outcome, hwrite, rfl⟩ := Result.map_eq_ok_iff.mp hok
    exact h.leads_writeFile hformed hwrite
  | delete path =>
    obtain ⟨outcome, hdelete, rfl⟩ := Result.map_eq_ok_iff.mp hok
    obtain ⟨-, hhas, rfl⟩ := delete_eq_ok hdelete
    exact h.leads_deleteAt hformed hhas
  | rename oldPath newPath =>
    obtain ⟨outcome, hrename, rfl⟩ := Result.map_eq_ok_iff.mp hok
    exact h.leads_rename hformed hrename
  | replace snapshot =>
    obtain ⟨new, hnew, rfl⟩ := Result.map_eq_ok_iff.mp hok
    exact h.leads_replace hformed (wellFormed_ofSnapshot hnew)

end Listing

end LivePreview.Tree
