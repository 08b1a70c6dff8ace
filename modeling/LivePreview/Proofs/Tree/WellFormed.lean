/-
  LivePreview.Proofs.Tree.WellFormed
  ──────────────────────────────────
  **Well-formed trees, and how attaching and detaching keep them so.**

  Well-formedness has two halves.  A tree is *grounded* if its root is a directory and
  every other path is in normal form and lies in a directory; this is a property of the
  bare nodes.  It is *linked* if the children of every directory are the paths that lie
  in it.  Detaching keeps a tree linked whatever is detached, so that only the bare
  nodes have to be looked at when a whole subtree goes.

  Main statements:

    • `WellFormed.attach`     — a bare node at a free path in a directory,
    • `WellFormed.detachAll`  — paths that take everything beneath them along,
    • `WellFormed.ext`        — a well-formed tree is determined by its bare nodes.
-/
import Mathlib.Data.List.Nodup
import Mathlib.Data.List.Perm.Subperm
import LivePreview.Proofs.Path.Ancestry
import LivePreview.Proofs.Tree.Lookup

namespace LivePreview.Tree

open LivePreview.Path (IsNormal names)

/-! ## §1. The two halves -/

/-- The root is a directory, and every other path is in normal form and lies in a directory. -/
structure Grounded (tree : Tree) : Prop where
  root_bare : tree.bare Path.root = some Node.emptyDirectory
  isNormal : ∀ path, tree.has path = true → IsNormal path
  parent_bare : ∀ path, tree.has path = true → path ≠ Path.root →
    tree.bare (Path.parent path) = some Node.emptyDirectory

/-- The children of every directory are the paths that lie in it. -/
def Linked (tree : Tree) : Prop :=
  ∀ directory children, tree.get? directory = some (.directory children) →
    ∀ path, path ∈ children ↔
      path ≠ Path.root ∧ tree.has path = true ∧ Path.parent path = directory

theorem has_eq_true_iff {tree : Tree} {path : Text} :
    tree.has path = true ↔ ∃ node, tree.get? path = some node := by
  unfold has
  exact Option.isSome_iff_exists

theorem has_of_bare {tree : Tree} {path : Text} {node : Node} (h : tree.bare path = some node) :
    tree.has path = true := by
  rw [← isSome_bare, h, Option.isSome_some]

theorem wellFormed_iff {tree : Tree} : tree.WellFormed ↔ tree.Grounded ∧ tree.Linked := by
  constructor
  · intro h
    refine ⟨⟨bare_eq_directory_iff.mpr h.root_isDirectory, fun path hpath => ?_,
      fun path hpath hroot => ?_⟩, h.mem_children_iff⟩
    · obtain ⟨node, hnode⟩ := has_eq_true_iff.mp hpath
      exact h.isNormal path node hnode
    · obtain ⟨node, hnode⟩ := has_eq_true_iff.mp hpath
      exact bare_eq_directory_iff.mpr (h.parent_isDirectory path node hnode hroot)
  · rintro ⟨hground, hlink⟩
    refine ⟨bare_eq_directory_iff.mp hground.root_bare, fun path node hnode => ?_,
      fun path node hnode hroot => ?_, hlink⟩
    · exact hground.isNormal path (has_eq_true_iff.mpr ⟨node, hnode⟩)
    · exact bare_eq_directory_iff.mp
        (hground.parent_bare path (has_eq_true_iff.mpr ⟨node, hnode⟩) hroot)

theorem WellFormed.grounded {tree : Tree} (h : tree.WellFormed) : tree.Grounded :=
  (wellFormed_iff.mp h).1

theorem WellFormed.linked {tree : Tree} (h : tree.WellFormed) : tree.Linked :=
  (wellFormed_iff.mp h).2

theorem WellFormed.has_root {tree : Tree} (h : tree.WellFormed) : tree.has Path.root = true :=
  has_of_bare h.grounded.root_bare

/-- A free path is not the root. -/
theorem WellFormed.ne_root_of_free {tree : Tree} (h : tree.WellFormed) {path : Text}
    (hfree : tree.has path = false) : path ≠ Path.root := by
  intro heq
  rw [heq, h.has_root] at hfree
  cases hfree

/-- The tree that holds nothing but the root is well-formed. -/
theorem wellFormed_empty : Tree.empty.WellFormed := by
  have hroot : ∀ q node, Tree.empty.get? q = some node → q = Path.root := by
    intro q node hq
    rw [get?_empty] at hq
    split at hq
    · assumption
    · cases hq
  refine ⟨⟨∅, by rw [get?_empty, if_pos rfl]; rfl⟩, fun q node hq => ?_, fun q node hq hne => ?_,
    fun q children hq path => ?_⟩
  · rw [hroot q node hq]
    exact Path.isNormal_root
  · exact absurd (hroot q node hq) hne
  · -- the only directory is the root, and it is its own parent, but not its own child
    have hchildren : ∅ = children := by
      have hq' := get?_empty q
      rw [hq, if_pos (hroot q _ hq), Option.some.injEq, Node.emptyDirectory,
        Node.directory.injEq] at hq'
      exact hq'.symm
    subst hchildren
    constructor
    · intro hmem
      exact absurd hmem Std.ExtTreeSet.not_mem_empty
    · rintro ⟨hne, hhas, -⟩
      obtain ⟨node, hnode⟩ := has_eq_true_iff.mp hhas
      exact absurd (hroot path node hnode) hne

/-! ## §2. Attaching -/

theorem has_attach (tree : Tree) (path : Text) (node : Node) (q : Text) :
    (tree.attach path node).has q = (decide (q = path) || tree.has q) := by
  rw [← isSome_bare, bare_attach]
  split
  · next h => simp [h]
  · next h => simp [h, isSome_bare]

/-- Entering a free path in its directory keeps the children of directories right. -/
theorem Linked.attach {tree : Tree} (hlink : tree.Linked) {path : Text} {node : Node}
    (hself : Path.parent path ≠ path) (hroot : path ≠ Path.root)
    (hbare : emptied node = node) (hfree : ∀ q, q ≠ Path.root → tree.has q = true →
      Path.parent q ≠ path) :
    (tree.attach path node).Linked := by
  intro directory children hdir q
  rw [get?_attach hself hroot] at hdir
  rw [has_attach]
  split at hdir
  · next heq =>
    -- a new directory has no children, and nothing lies in it yet
    subst heq
    cases node with
    | file content => simp at hdir
    | directory cs =>
      simp only [emptied, Node.emptyDirectory, Node.directory.injEq] at hbare
      simp only [Option.some.injEq, Node.directory.injEq] at hdir
      subst hdir hbare
      constructor
      · intro hmem
        exact absurd hmem Std.ExtTreeSet.not_mem_empty
      · rintro ⟨hqroot, hhas, hparent⟩
        rcases Bool.or_eq_true_iff.mp hhas with hq | hq
        · rw [of_decide_eq_true hq] at hparent
          exact absurd hparent hself
        · exact absurd hparent (hfree q hqroot hq)
  · split at hdir
    · next heq =>
      -- the directory of the path gains the path
      obtain ⟨old, hold, hchild⟩ := Option.map_eq_some_iff.mp hdir
      cases old with
      | file content => simp [Node.addChild] at hchild
      | directory cs =>
        simp only [Node.addChild, Node.directory.injEq] at hchild
        subst hchild
        rw [Std.ExtTreeSet.mem_insert, Std.LawfulEqCmp.compare_eq_iff_eq,
          hlink directory cs hold q]
        by_cases hq : q = path
        · subst hq
          simp [hroot, heq]
        · simp [hq, Ne.symm hq]
    · next hne =>
      -- every other directory keeps its children
      rw [hlink directory children hdir q]
      by_cases hq : q = path
      · subst hq
        simp [Ne.symm hne]
      · simp [hq]

/-- A bare node may be attached at a free path in a directory. -/
theorem WellFormed.attach {tree : Tree} (h : tree.WellFormed) {path : Text} {node : Node}
    (hpath : IsNormal path) (hfree : tree.has path = false)
    (hparent : tree.bare (Path.parent path) = some Node.emptyDirectory)
    (hbare : emptied node = node) : (tree.attach path node).WellFormed := by
  have hroot := h.ne_root_of_free hfree
  have hself := hpath.parent_ne hroot
  refine wellFormed_iff.mpr ⟨⟨?_, fun q hq => ?_, fun q hq hqroot => ?_⟩,
    h.linked.attach hself hroot hbare fun q hqroot hq hqp => ?_⟩
  · rw [bare_attach, if_neg (Ne.symm hroot), h.grounded.root_bare]
  · rw [has_attach, Bool.or_eq_true, decide_eq_true_eq] at hq
    rcases hq with rfl | hq
    · exact hpath
    · exact h.grounded.isNormal q hq
  · rw [has_attach, Bool.or_eq_true, decide_eq_true_eq] at hq
    rw [bare_attach]
    rcases hq with rfl | hq
    · rw [if_neg hself, hparent]
    · have hqparent := h.grounded.parent_bare q hq hqroot
      split
      · -- the path was free, so that no node can lie in it
        next heq =>
        rw [heq] at hqparent
        rw [has_of_bare hqparent] at hfree
        cases hfree
      · exact hqparent
  · have hqparent := h.grounded.parent_bare q hq hqroot
    rw [hqp] at hqparent
    rw [has_of_bare hqparent] at hfree
    cases hfree

/-! ## §3. Detaching -/

theorem has_detach (tree : Tree) (path q : Text) :
    (tree.detach path).has q = (decide (q ≠ path) && tree.has q) := by
  rw [← isSome_bare, bare_detach]
  split
  · next h => simp [h]
  · next h => simp [h, isSome_bare]

/-- Detaching a node keeps the children of all other directories right. -/
theorem Linked.detach {tree : Tree} (hlink : tree.Linked) (path : Text) :
    (tree.detach path).Linked := by
  intro directory children hdir q
  rw [get?_detach] at hdir
  rw [has_detach]
  split at hdir
  · cases hdir
  · split at hdir
    · next heq =>
      -- the directory of the path loses the path
      obtain ⟨old, hold, hchild⟩ := Option.map_eq_some_iff.mp hdir
      cases old with
      | file content => simp [Node.removeChild] at hchild
      | directory cs =>
        simp only [Node.removeChild, Node.directory.injEq] at hchild
        subst hchild
        rw [Std.ExtTreeSet.mem_erase, hlink directory cs hold q]
        simp only [ne_eq, Std.LawfulEqCmp.compare_eq_iff_eq, Bool.and_eq_true, decide_eq_true_eq,
          eq_comm (a := path)]
        constructor
        · rintro ⟨hq, hqroot, hhas, hparent⟩
          exact ⟨hqroot, ⟨hq, hhas⟩, hparent⟩
        · rintro ⟨hqroot, ⟨hq, hhas⟩, hparent⟩
          exact ⟨hq, hqroot, hhas, hparent⟩
    · next hne =>
      -- a path that is detached was no child of any other directory
      rw [hlink directory children hdir q]
      by_cases hq : q = path
      · subst hq
        simp [Ne.symm hne]
      · simp [hq]

theorem Linked.detachAll {tree : Tree} (hlink : tree.Linked) (paths : List Text) :
    (tree.detachAll paths).Linked := by
  unfold Tree.detachAll
  induction paths generalizing tree with
  | nil => exact hlink
  | cons path paths ih => exact ih (hlink.detach path)

theorem has_detachAll (tree : Tree) (paths : List Text) (q : Text) :
    (tree.detachAll paths).has q = (decide (q ∉ paths) && tree.has q) := by
  rw [← isSome_bare, bare_detachAll]
  split
  · next h => simp [h]
  · next h => simp [h, isSome_bare]

/-- Paths may be detached if they take along what lies in them, and the root is none of them. -/
theorem WellFormed.detachAll {tree : Tree} (h : tree.WellFormed) {paths : List Text}
    (hroot : Path.root ∉ paths)
    (hclosed : ∀ q, tree.has q = true → q ≠ Path.root → Path.parent q ∈ paths → q ∈ paths) :
    (tree.detachAll paths).WellFormed := by
  refine wellFormed_iff.mpr ⟨⟨?_, fun q hq => ?_, fun q hq hqroot => ?_⟩,
    h.linked.detachAll paths⟩
  · rw [bare_detachAll, if_neg hroot, h.grounded.root_bare]
  · rw [has_detachAll, Bool.and_eq_true] at hq
    exact h.grounded.isNormal q hq.2
  · rw [has_detachAll, Bool.and_eq_true, decide_eq_true_eq] at hq
    rw [bare_detachAll, if_neg fun hmem => hq.1 (hclosed q hq.2 hqroot hmem)]
    exact h.grounded.parent_bare q hq.2 hqroot

/-! ## §4. What lies above a path -/

/-- Every proper prefix of the names of a path leads to a directory. -/
theorem WellFormed.bare_of_begins {tree : Tree} (h : tree.WellFormed) {path directory : Text}
    (hpath : tree.has path = true) (hdir : IsNormal directory)
    (hbegins : names directory <+: names path) (hne : names directory ≠ names path) :
    tree.bare directory = some Node.emptyDirectory := by
  have hnormal := h.grounded.isNormal path hpath
  have hroot : path ≠ Path.root := by
    rintro rfl
    rw [Path.names_root] at hbegins hne
    exact hne (List.prefix_nil.mp hbegins)
  have hparent := h.grounded.parent_bare path hpath hroot
  -- the directory is the parent of the path, or lies above it
  have hup : names directory <+: names (Path.parent path) := by
    rw [hnormal.names_parent]
    exact Path.prefix_dropLast_of_ne hbegins hne
  by_cases heq : names directory = names (Path.parent path)
  · rw [hdir.ext hnormal.parent heq]
    exact hparent
  · have hlt : (names (Path.parent path)).length < (names path).length := by
      obtain ⟨name, hname⟩ := hnormal.exists_names_eq_concat hroot
      rw [hname, List.length_append, List.length_singleton]
      omega
    exact h.bare_of_begins (has_of_bare hparent) hdir hup heq
  termination_by (names path).length

/-- What a path of the tree is within is a path of the tree. -/
theorem WellFormed.has_of_isWithin {tree : Tree} (h : tree.WellFormed) {path directory : Text}
    (hpath : tree.has path = true) (hdir : IsNormal directory)
    (hwithin : Path.isWithin path directory = true) : tree.has directory = true := by
  have hnormal := h.grounded.isNormal path hpath
  have hbegins := (hnormal.isWithin_iff hdir).mp hwithin
  by_cases heq : names directory = names path
  · rwa [hdir.ext hnormal heq]
  · exact has_of_bare (h.bare_of_begins hpath hdir hbegins heq)

/-- A path has fewer names than the tree has nodes. -/
theorem WellFormed.length_names_lt_size {tree : Tree} (h : tree.WellFormed) {path : Text}
    (hpath : tree.has path = true) : (names path).length < tree.size := by
  have hnormal := h.grounded.isNormal path hpath
  have hanames := Path.areNames_names path
  -- the paths of all prefixes are different, and all of them stand in the tree
  let above := (List.range ((names path).length + 1)).map fun n => Path.ofNames ((names path).take n)
  have htake : ∀ n, names (Path.ofNames ((names path).take n)) = (names path).take n :=
    fun n => Path.names_ofNames (hanames.of_subset (List.take_subset _ _))
  have hnodup : above.Nodup := by
    refine List.Nodup.map_on (fun a ha b hb heq => ?_) List.nodup_range
    have hlen := congrArg (fun q => (names q).length) heq
    simp only [htake, List.length_take] at hlen
    rw [List.mem_range] at ha hb
    omega
  have hsub : above ⊆ tree.nodes.keys := by
    intro q hq
    obtain ⟨n, -, rfl⟩ := List.mem_map.mp hq
    have hmem : tree.has (Path.ofNames ((names path).take n)) = true := by
      refine h.has_of_isWithin hpath
        (Path.isNormal_ofNames (hanames.of_subset (List.take_subset _ _))) ?_
      rw [hnormal.isWithin_iff (Path.isNormal_ofNames (hanames.of_subset (List.take_subset _ _))),
        htake]
      exact List.take_prefix _ _
    rw [Std.ExtTreeMap.mem_keys, Std.ExtTreeMap.mem_iff_isSome_getElem?]
    exact hmem
  have hlen := (hnodup.subperm hsub).length_le
  rw [Std.ExtTreeMap.length_keys, List.length_map, List.length_range] at hlen
  exact hlen

/-! ## §5. Equality -/

/-- A well-formed tree is determined by its bare nodes. -/
theorem WellFormed.ext {s t : Tree} (hs : s.WellFormed) (ht : t.WellFormed)
    (h : ∀ path, s.bare path = t.bare path) : s = t := by
  have hhas : ∀ path, s.has path = t.has path := by
    intro path
    rw [← isSome_bare, h, isSome_bare]
  refine Tree.ext (Std.ExtTreeMap.ext_getElem? fun path => ?_)
  show s.get? path = t.get? path
  cases hspath : s.get? path with
  | none =>
    have hnone : t.bare path = none := by rw [← h, bare, hspath, Option.map_none]
    exact (Option.map_eq_none_iff.mp hnone).symm
  | some node =>
    cases node with
    | file content =>
      exact (bare_eq_file_iff.mp (by rw [← h]; exact bare_eq_file_iff.mpr hspath)).symm
    | directory children =>
      have hdir : t.bare path = some Node.emptyDirectory := by
        rw [← h]
        exact bare_eq_directory_iff.mpr ⟨children, hspath⟩
      obtain ⟨others, htpath⟩ := bare_eq_directory_iff.mp hdir
      -- the children are determined by what stands in the tree
      have hsame : children = others := by
        refine Std.ExtTreeSet.ext_mem fun q => ?_
        rw [hs.linked path children hspath q, ht.linked path others htpath q, hhas q]
      rw [htpath, hsame]

end LivePreview.Tree
