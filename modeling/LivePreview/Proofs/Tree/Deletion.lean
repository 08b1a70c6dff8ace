/-
  LivePreview.Proofs.Tree.Deletion
  ────────────────────────────────
  **Walking a directory, and deleting it.**

  A directory is walked with a stack of paths that are still to be visited.  The path on
  top is taken off and its children are put on, the first one uppermost (`Walks`).  In a
  well-formed tree this comes to an end, at a list that is known beforehand: `subtree`, in
  which the children of a path stand right behind it, each with what is beneath it
  (`WellFormed.walks_iff`).  The list holds what the texts of the paths say is within the
  directory, once each, in the order of lists of names (`Lists`):

      /src   /src/a   /src/a/c.ts   /src/a-b.ts

  In the order of texts the last two would change places, since the dash comes before the
  slash.

  A delete takes the paths of this list away, from the last one to the first.  Behind it
  every other node is as it was, with its children, but for the directory of the path,
  which has lost this one child (`Cleared`).
-/
import LivePreview.Proofs.Tree.InPlace

namespace LivePreview.Tree

open LivePreview.Path (names)

variable {tree : Tree} {path : Text}

/-! ## §1. A walk with a stack -/

/-- What is visited from a stack of paths, in this order.  There is no way on if nothing stands at the
path on top. -/
inductive Walks (tree : Tree) : List Text → List Text → Prop where
  | done : Walks tree [] []
  | visit {path : Text} {node : Node} {stack visited : List Text} (hnode : tree.get? path = some node)
      (hrest : Walks tree (node.childList ++ stack) visited) : Walks tree (path :: stack) (path :: visited)

/-- A walk leads to one list only. -/
theorem Walks.unique {stack visited other : List Text} (h : tree.Walks stack visited)
    (hother : tree.Walks stack other) : visited = other := by
  induction h generalizing other with
  | done =>
    cases hother
    rfl
  | visit hnode _ ih =>
    cases hother with
    | visit hnode' hrest' =>
      obtain rfl := Option.some.inj (hnode.symm.trans hnode')
      rw [ih hrest']

/-- If every path is walked with what is beneath it, several on a stack are walked one after the
other. -/
theorem walks_flatMap {beneath : Text → List Text} {paths stack visited : List Text}
    (hone : ∀ p ∈ paths, ∀ {stack visited}, tree.Walks stack visited →
      tree.Walks (p :: stack) (beneath p ++ visited))
    (hrest : tree.Walks stack visited) : tree.Walks (paths ++ stack) (paths.flatMap beneath ++ visited) := by
  induction paths with
  | nil => exact hrest
  | cons p paths ih =>
    rw [List.forall_mem_cons] at hone
    rw [List.flatMap_cons, List.append_assoc]
    exact hone.1 (ih hone.2)

section WellFormed

variable (h : tree.WellFormed)
include h

/-- A path is walked with what is beneath it, and then the rest of the stack. -/
theorem WellFormed.walks_descend {depth : Nat} {stack visited : List Text} (hpath : tree.has path = true)
    (hdepth : ∀ q, tree.has q = true → names path <+: names q → (names q).length < (names path).length + depth)
    (hrest : tree.Walks stack visited) : tree.Walks (path :: stack) (tree.descend depth path ++ visited) := by
  -- by induction on the depth, of which the path itself takes one and each child one more
  induction depth generalizing path stack visited with
  | zero => exact absurd (hdepth path hpath List.prefix_rfl) (Nat.lt_irrefl _)
  | succ depth ih =>
    obtain ⟨node, hnode⟩ := has_eq_true_iff.mp hpath
    have hchildren : tree.childrenAt path = node.childList := by
      unfold childrenAt
      rw [hnode]
      rfl
    have hone : ∀ child ∈ tree.childrenAt path, ∀ {stack visited}, tree.Walks stack visited →
        tree.Walks (child :: stack) (tree.descend depth child ++ visited) := by
      intro child hchild stack visited hrest
      obtain ⟨name, hname⟩ := h.exists_name_of_mem_childrenAt hchild
      refine ih (h.mem_childrenAt_iff.mp hchild).2.1 (fun q hq hbegins => ?_) hrest
      have hbeneath : names path <+: names q := by
        rw [hname] at hbegins
        exact (List.prefix_append _ _).trans hbegins
      have hlength := hdepth q hq hbeneath
      rw [hname, List.length_append, List.length_singleton]
      omega
    refine .visit hnode ?_
    rw [← hchildren]
    exact walks_flatMap hone hrest

/-- **A walk with a stack comes to an end, and visits the paths of `subtree` in their order.** -/
theorem WellFormed.walks_iff (hpath : tree.has path = true) {visited : List Text} :
    tree.Walks [path] visited ↔ visited = tree.subtree path := by
  have hwalks : tree.Walks [path] (tree.subtree path ++ []) := by
    refine h.walks_descend hpath (fun q hq _ => ?_) .done
    have hlength := h.length_names_lt_size hq
    omega
  rw [List.append_nil] at hwalks
  constructor
  · intro hvisited
    exact hvisited.unique hwalks
  · rintro rfl
    exact hwalks

end WellFormed

/-! ## §2. What a walk finds -/

/-- The list holds all that is within a path: once each, in the order of lists of names, and so every
path but the first behind its directory. -/
structure Lists (tree : Tree) (path : Text) (found : List Text) : Prop where
  mem_iff : ∀ q, q ∈ found ↔ tree.has q = true ∧ Path.isWithin q path = true
  nodup : found.Nodup
  ordered : found.Pairwise Precedes
  parent_mem : ∀ before q behind, found = before ++ q :: behind → q ≠ path → Path.parent q ∈ before

theorem WellFormed.lists_subtree (h : tree.WellFormed) (hpath : tree.has path = true) :
    tree.Lists path (tree.subtree path) where
  mem_iff _ := h.mem_subtree_iff hpath
  nodup := h.subtree_nodup hpath
  ordered := h.subtree_ordered hpath
  parent_mem _ _ _ hsplit hne := h.parent_mem_of_subtree_eq hpath hsplit hne

/-! ## §3. What a delete leaves -/

/-- All that is within the path is gone, and every other node is as it was, with its children; only the
directory of the path has lost it from its children. -/
structure Cleared (tree : Tree) (path : Text) (after : Tree) : Prop where
  gone : ∀ q, Path.isWithin q path = true → after.get? q = none
  get?_parent : after.get? (Path.parent path) = (tree.get? (Path.parent path)).map (Node.removeChild path)
  kept : ∀ q, Path.isWithin q path = false → q ≠ Path.parent path → after.get? q = tree.get? q

/-- A path is no child of a directory that it does not lie in. -/
theorem WellFormed.map_removeChild_of_ne (h : tree.WellFormed) {q : Text} (hne : q ≠ Path.parent path) :
    (tree.get? q).map (Node.removeChild path) = tree.get? q := by
  cases hnode : tree.get? q with
  | none => rfl
  | some node =>
    cases node with
    | file content => rfl
    | directory children =>
      have herase : children.erase path = children := by
        refine Std.ExtTreeSet.ext_mem fun p => ?_
        rw [Std.ExtTreeSet.mem_erase, h.linked q children hnode p, and_iff_right_iff_imp]
        rintro ⟨-, -, rfl⟩ heq
        rw [Std.LawfulEqCmp.compare_eq_iff_eq] at heq
        exact hne (congrArg Path.parent heq.symm)
      rw [Option.map_some, Node.removeChild, herase]

section Delete

variable (h : tree.WellFormed) (hpath : tree.has path = true)
include h hpath

theorem WellFormed.has_deleteAt (q : Text) :
    (tree.deleteAt path).tree.has q = true ↔ tree.has q = true ∧ Path.isWithin q path = false := by
  rw [← isSome_bare, h.bare_deleteAt hpath]
  cases Path.isWithin q path <;> simp [isSome_bare]

variable (hroot : path ≠ Path.root)
include hroot

/-- Of what lies in a directory outside of the path only the path itself can be gone. -/
theorem WellFormed.children_deleteAt {q : Text} {children others : PathSet} (hq : Path.isWithin q path = false)
    (hbefore : tree.get? q = some (.directory children))
    (hbehind : (tree.deleteAt path).tree.get? q = some (.directory others)) : others = children.erase path := by
  have hafter := h.deleteAt hpath hroot
  have hnormal := h.grounded.isNormal path hpath
  refine Std.ExtTreeSet.ext_mem fun p => ?_
  rw [hafter.linked q others hbehind p, Std.ExtTreeSet.mem_erase, h.linked q children hbefore p,
    h.has_deleteAt hpath, ne_eq (compare path p), Std.LawfulEqCmp.compare_eq_iff_eq]
  constructor
  · rintro ⟨hproot, ⟨hhas, houtside⟩, hparent⟩
    refine ⟨?_, hproot, hhas, hparent⟩
    rintro rfl
    rw [hnormal.isWithin_self] at houtside
    cases houtside
  · rintro ⟨hne, hproot, hhas, rfl⟩
    refine ⟨hproot, ⟨hhas, Bool.eq_false_iff.mpr fun hwithin => ?_⟩, rfl⟩
    -- what is beneath the path lies in a directory that is within it
    have hinside := (h.grounded.isNormal p hhas).isWithin_parent hnormal hwithin (Ne.symm hne)
    rw [hq] at hinside
    cases hinside

/-- Behind a delete a node outside of the path has lost at most this one child. -/
theorem WellFormed.get?_deleteAt {q : Text} (hq : Path.isWithin q path = false) :
    (tree.deleteAt path).tree.get? q = (tree.get? q).map (Node.removeChild path) := by
  have hbare : (tree.deleteAt path).tree.bare q = tree.bare q := by
    rw [h.bare_deleteAt hpath, hq, if_neg Bool.false_ne_true]
  cases hnode : tree.get? q with
  | none =>
    rw [bare, bare, hnode] at hbare
    exact Option.map_eq_none_iff.mp hbare
  | some node =>
    cases node with
    | file content => exact bare_eq_file_iff.mp (hbare.trans (bare_eq_file_iff.mpr hnode))
    | directory children =>
      obtain ⟨others, hbehind⟩ :=
        bare_eq_directory_iff.mp (hbare.trans (bare_eq_directory_iff.mpr ⟨children, hnode⟩))
      rw [hbehind, h.children_deleteAt hpath hroot hq hnode hbehind]
      rfl

theorem WellFormed.cleared_deleteAt : tree.Cleared path (tree.deleteAt path).tree where
  gone q hwithin := by
    have hbare := h.bare_deleteAt hpath q
    rw [hwithin, if_pos rfl] at hbare
    exact Option.map_eq_none_iff.mp hbare
  get?_parent := by
    have hnormal := h.grounded.isNormal path hpath
    -- the directory of a path is outside of it
    refine h.get?_deleteAt hpath hroot (Bool.eq_false_iff.mpr fun hwithin => ?_)
    exact hnormal.parent_ne hroot
      (hnormal.parent.eq_of_isWithin hnormal hwithin hnormal.isWithin_parent_self)
  kept q hq hne := by
    rw [h.get?_deleteAt hpath hroot hq, h.map_removeChild_of_ne hne]

end Delete

theorem delete_eq (hroot : Path.normalize path ≠ Path.root) (hpath : tree.has (Path.normalize path) = true) :
    tree.delete path = .ok (tree.deleteAt (Path.normalize path)) := by
  obtain ⟨node, hnode⟩ := has_eq_true_iff.mp hpath
  unfold delete
  dsimp only
  rw [if_neg hroot, require_eq_ok_iff.mpr hnode]
  rfl

theorem walk_eq (hpath : tree.has (Path.normalize path) = true) :
    tree.walk path = .ok (tree.subtree (Path.normalize path)) := by
  obtain ⟨node, hnode⟩ := has_eq_true_iff.mp hpath
  unfold walk
  rw [require_eq_ok_iff.mpr hnode]
  rfl

/-! ## §4. Behind every run -/

/-- Behind every run there is one list for each path at which something stands.  It holds all that is
within the path, once each, in the order of lists of names; a walk with a stack comes to an end with it
and with no other list; and unless the path is the root, a delete answers with it, takes away its paths
one by one without finding any of them gone, and leaves every other node as it was, except that the path
leaves the children of its directory. -/
theorem walk_and_delete_of_run {start : Tree} (hstart : start.IsInitial) (edits : List Edit) (path : Text)
    (hpath : (start.run edits).has (Path.normalize path) = true) :
    let tree := start.run edits
    let target := Path.normalize path
    ∃ found, tree.Lists target found ∧ tree.walk path = .ok found ∧
      (∀ visited, tree.Walks [target] visited ↔ visited = found) ∧
      (target ≠ Path.root → ∃ outcome, tree.delete path = .ok outcome ∧ outcome.answer = found ∧
        tree.Cleared target outcome.tree ∧
        (Program.delete path).after tree = (.ok (found, outcome.changes?), outcome.tree)) := by
  intro tree target
  have hformed : tree.WellFormed := hstart.wellFormed.run edits
  refine ⟨tree.subtree target, hformed.lists_subtree hpath, walk_eq hpath,
    fun visited => hformed.walks_iff hpath, fun hroot => ?_⟩
  have hdelete := delete_eq hroot hpath
  refine ⟨_, hdelete, rfl, hformed.cleared_deleteAt hpath hroot, ?_⟩
  rw [Program.after_delete hformed, hdelete]
  rfl

/-- A directory with a file in a directory of its own, and beside it a file whose name goes on from that
of the directory with a character below the slash. -/
def dashedEdits : List Edit :=
  [.createFile "/src/a-b.ts" "x", .createFile "/src/a/c.ts" "y", .createFile "/src-b" "z"]

/-- What is within the outer directory, in the order of lists of names. -/
def dashedPaths : List Text :=
  ["/src", "/src/a", "/src/a/c.ts", "/src/a-b.ts"]

/-- The outer directory is walked in another order than that of texts, and deleted. -/
theorem walk_and_delete_of_run_dashed :
    (Tree.empty.run dashedEdits).walk "src/." = .ok dashedPaths ∧
      ∃ outcome, (Tree.empty.run dashedEdits).delete "src/." = .ok outcome ∧
        outcome.answer = dashedPaths ∧ outcome.tree.get? "/src/a/c.ts" = none ∧
        outcome.tree.get? "/src-b" = some (.file (.text "z")) ∧
        (outcome.tree.get? Path.root).map Node.childList = some [("/src-b" : Text)] := by
  obtain ⟨found, -, hwalk, -, hdelete⟩ :=
    walk_and_delete_of_run (.inl rfl) dashedEdits "src/." (by decide)
  obtain ⟨outcome, hok, hanswer, hcleared, -⟩ := hdelete (by decide)
  have hfound : found = dashedPaths := Except.ok.inj (hwalk.symm.trans rfl)
  have hkept := hcleared.kept "/src-b" (by decide) (by decide)
  have hparent : outcome.tree.get? Path.root = _ := hcleared.get?_parent
  refine ⟨hfound ▸ hwalk, outcome, hok, hanswer.trans hfound, hcleared.gone _ (by decide), hkept.trans rfl, ?_⟩
  rw [hparent]
  rfl

end LivePreview.Tree
