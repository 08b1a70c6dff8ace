/-
  LivePreview.Proofs.Tree.Attaching
  ─────────────────────────────────
  **Attaching one node after the other.**

  An operation that makes new nodes attaches them from left to right, a directory in
  front of what lies in it (`Attachable`).  Between two steps the tree is well-formed as
  well, so that nodes may come to directories that were attached just before
  (`WellFormed.attachAll`).
  The directories above a path that do not exist yet are such a list
  (`WellFormed.attachDirectories_missing`).

  Trees of which every file holds a text (`HoldsTexts`) stay so under the same steps.
-/
import LivePreview.Proofs.Tree.Subtree

namespace LivePreview

open LivePreview.Path (IsNormal names ancestors)

/-! ## §1. Trees of texts -/

/-- The node is a directory, or a file that holds a text. -/
def Node.HoldsText (node : Node) : Prop :=
  ∀ content, node.content? = some content → ∃ s, content = .text s

theorem Node.holdsText_emptyDirectory : Node.emptyDirectory.HoldsText := by
  intro content hcontent
  cases hcontent

theorem Node.holdsText_file (s : Text) : (Node.file (.text s)).HoldsText := by
  intro content hcontent
  cases hcontent
  exact ⟨s, rfl⟩

@[simp] theorem Node.content?_emptied (node : Node) :
    (Tree.emptied node).content? = node.content? := by
  cases node <;> rfl

namespace Tree

/-- Every file of the tree holds a text. -/
def HoldsTexts (tree : Tree) : Prop :=
  ∀ path node, tree.get? path = some node → node.HoldsText

/-- Whether a tree holds texts can be seen from its bare nodes. -/
theorem holdsTexts_iff {tree : Tree} :
    tree.HoldsTexts ↔ ∀ path node, tree.bare path = some node → node.HoldsText := by
  constructor
  · intro h path node hnode content hcontent
    obtain ⟨original, horiginal, rfl⟩ := Option.map_eq_some_iff.mp hnode
    rw [Node.content?_emptied] at hcontent
    exact h path original horiginal content hcontent
  · intro h path node hnode content hcontent
    have hbare : tree.bare path = some (emptied node) := by rw [bare, hnode, Option.map_some]
    exact h path _ hbare content (by rw [Node.content?_emptied, hcontent])

theorem holdsTexts_empty : Tree.empty.HoldsTexts := by
  intro path node hnode
  rw [get?_empty] at hnode
  split at hnode
  · cases hnode
    exact Node.holdsText_emptyDirectory
  · cases hnode

theorem HoldsTexts.insert {tree : Tree} (h : tree.HoldsTexts) {path : Text} {node : Node}
    (hnode : node.HoldsText) : (⟨tree.nodes.insert path node⟩ : Tree).HoldsTexts := by
  intro q other hother
  rw [get?_insert] at hother
  split at hother
  · cases hother
    exact hnode
  · exact h q other hother

theorem HoldsTexts.attach {tree : Tree} (h : tree.HoldsTexts) {path : Text} {node : Node}
    (hnode : node.HoldsText) : (tree.attach path node).HoldsTexts := by
  refine holdsTexts_iff.mpr fun q other hother => ?_
  rw [bare_attach] at hother
  split at hother
  · cases hother
    intro content hcontent
    exact hnode content (by rwa [Node.content?_emptied] at hcontent)
  · exact holdsTexts_iff.mp h q other hother

theorem HoldsTexts.attachAll {tree : Tree} (h : tree.HoldsTexts) {nodes : List (Text × Node)}
    (hnodes : ∀ entry ∈ nodes, entry.2.HoldsText) : (tree.attachAll nodes).HoldsTexts := by
  unfold Tree.attachAll
  induction nodes generalizing tree with
  | nil => exact h
  | cons entry nodes ih =>
    rw [List.forall_mem_cons] at hnodes
    exact ih (h.attach hnodes.1) hnodes.2

theorem HoldsTexts.attachDirectories {tree : Tree} (h : tree.HoldsTexts) (paths : List Text) :
    (tree.attachDirectories paths).HoldsTexts := by
  refine holdsTexts_iff.mpr fun q node hnode => ?_
  rw [bare_attachDirectories] at hnode
  split at hnode
  · cases hnode
    exact Node.holdsText_emptyDirectory
  · exact holdsTexts_iff.mp h q node hnode

theorem HoldsTexts.detachAll {tree : Tree} (h : tree.HoldsTexts) (paths : List Text) :
    (tree.detachAll paths).HoldsTexts := by
  refine holdsTexts_iff.mpr fun q node hnode => ?_
  rw [bare_detachAll] at hnode
  split at hnode
  · cases hnode
  · exact holdsTexts_iff.mp h q node hnode

/-! ## §2. Attaching one node after the other -/

/-- Bare nodes can be attached from left to right: each of them comes to a free path, in a directory
of the tree or one of the directories attached before it. -/
def Attachable (tree : Tree) (nodes : List (Text × Node)) : Prop :=
  ∀ before path node behind, nodes = before ++ (path, node) :: behind →
    IsNormal path ∧ emptied node = node ∧ tree.has path = false ∧ path ∉ before.map Prod.fst ∧
      (tree.bare (Path.parent path) = some Node.emptyDirectory ∨
        (Path.parent path, Node.emptyDirectory) ∈ before)

section Attachable

variable {tree : Tree} {path : Text} {node : Node} {nodes : List (Text × Node)}

theorem Attachable.head (h : tree.Attachable ((path, node) :: nodes)) :
    IsNormal path ∧ emptied node = node ∧ tree.has path = false ∧
      tree.bare (Path.parent path) = some Node.emptyDirectory := by
  obtain ⟨hnormal, hbare, hfree, -, hparent⟩ := h [] path node nodes rfl
  exact ⟨hnormal, hbare, hfree, hparent.resolve_right List.not_mem_nil⟩

/-- With the first node attached, the others still come to free places. -/
theorem Attachable.tail (h : tree.Attachable ((path, node) :: nodes)) :
    (tree.attach path node).Attachable nodes := by
  obtain ⟨-, -, hfirst, -⟩ := h.head
  intro before q other behind hsplit
  obtain ⟨hnormal, hbare, hfree, hnew, hparent⟩ :=
    h ((path, node) :: before) q other behind (by rw [hsplit, List.cons_append])
  rw [List.map_cons, List.mem_cons, not_or] at hnew
  refine ⟨hnormal, hbare, ?_, hnew.2, ?_⟩
  · rw [has_attach, hfree, Bool.or_false, decide_eq_false hnew.1]
  · rw [List.mem_cons, Prod.mk.injEq] at hparent
    rw [bare_attach]
    -- the directory was there before, is the node just attached, or comes later
    rcases hparent with hold | ⟨heq, hdir⟩ | hlater
    · have hne : Path.parent q ≠ path := by
        rintro heq
        rw [heq] at hold
        rw [has_of_bare hold] at hfirst
        cases hfirst
      rw [if_neg hne]
      exact .inl hold
    · rw [if_pos heq, ← hdir]
      exact .inl rfl
    · exact .inr hlater

end Attachable

theorem WellFormed.attachAll {tree : Tree} (h : tree.WellFormed) {nodes : List (Text × Node)}
    (hnodes : tree.Attachable nodes) : (tree.attachAll nodes).WellFormed := by
  unfold Tree.attachAll
  induction nodes generalizing tree with
  | nil => exact h
  | cons entry nodes ih =>
    obtain ⟨path, node⟩ := entry
    obtain ⟨hnormal, hbare, hfree, hparent⟩ := hnodes.head
    exact ih (h.attach hnormal hfree hparent hbare) hnodes.tail

theorem attachDirectories_eq_attachAll (tree : Tree) (paths : List Text) :
    tree.attachDirectories paths = tree.attachAll (paths.map fun p => (p, Node.emptyDirectory)) := by
  unfold Tree.attachDirectories Tree.attachAll
  rw [List.foldl_map]

/-! ## §3. The directories above a path -/

/-- What is above a path of which the ancestors could be found is no file. -/
theorem missingAncestors_eq_ok_iff {tree : Tree} {path : Text} {missing : List Text} :
    tree.missingAncestors path = .ok missing
      ↔ (∀ ancestor ∈ ancestors path, tree.isFileAt ancestor = false)
        ∧ missing = (ancestors path).filter (!tree.has ·) := by
  unfold missingAncestors
  split
  · next file hfind =>
    have hmem := List.mem_of_find?_eq_some hfind
    have hfile := List.find?_some hfind
    constructor
    · intro h
      cases h
    · rintro ⟨hnone, -⟩
      rw [hnone file hmem] at hfile
      cases hfile
  · next hfind =>
    rw [List.find?_eq_none] at hfind
    rw [Except.ok.injEq]
    constructor
    · rintro rfl
      exact ⟨fun ancestor hmem => Bool.eq_false_iff.mpr (hfind ancestor hmem), rfl⟩
    · rintro ⟨-, rfl⟩
      rfl

/-- What stands in the tree and is no file is a directory. -/
theorem bare_of_isFileAt_eq_false {tree : Tree} {path : Text} (hhas : tree.has path = true)
    (hfile : tree.isFileAt path = false) : tree.bare path = some Node.emptyDirectory := by
  obtain ⟨node, hnode⟩ := has_eq_true_iff.mp hhas
  rw [isFileAt, hnode] at hfile
  cases node with
  | file content => cases hfile
  | directory children => exact bare_eq_directory_iff.mpr ⟨children, hnode⟩

theorem isFileAt_eq_false_of_bare {tree : Tree} {path : Text}
    (hdirectory : tree.bare path = some Node.emptyDirectory) : tree.isFileAt path = false := by
  obtain ⟨children, hnode⟩ := bare_eq_directory_iff.mp hdirectory
  unfold isFileAt
  rw [hnode]
  rfl

/-- The missing ones of the ancestors come in the order in which they lie in each other. -/
theorem ancestors_ordered {path : Text} (hpath : IsNormal path) :
    (ancestors path).Pairwise fun a b => (names a).length < (names b).length := by
  rw [hpath.ancestors_eq, List.pairwise_map]
  refine List.pairwise_lt_range.imp_of_mem fun {m n} hm hn hlt => ?_
  have htake : ∀ k, names (Path.ofNames ((names path).take k)) = (names path).take k :=
    fun k => Path.names_ofNames ((Path.areNames_names path).of_subset (List.take_subset _ _))
  rw [htake, htake, List.length_take, List.length_take]
  rw [List.mem_range] at hm hn
  omega

section Missing

variable {tree : Tree} {path : Text} {missing : List Text}
  (hmissing : tree.missingAncestors path = .ok missing)
include hmissing

/-- Behind the missing directories all ancestors are directories, and nothing else has changed. -/
theorem bare_attachDirectories_missing (q : Text) :
    (tree.attachDirectories missing).bare q
      = if q ∈ ancestors path then some Node.emptyDirectory else tree.bare q := by
  obtain ⟨hfiles, rfl⟩ := missingAncestors_eq_ok_iff.mp hmissing
  rw [bare_attachDirectories]
  by_cases hq : q ∈ ancestors path
  · rw [if_pos hq]
    cases hhas : tree.has q with
    | false => simp [hq, hhas]
    | true => simp [hhas, bare_of_isFileAt_eq_false hhas (hfiles q hq)]
  · simp [hq]

theorem has_attachDirectories_missing (q : Text) :
    (tree.attachDirectories missing).has q = (decide (q ∈ ancestors path) || tree.has q) := by
  rw [← isSome_bare, bare_attachDirectories_missing hmissing]
  split
  · next hq => simp [hq]
  · next hq => simp [hq, isSome_bare]

/-- The missing directories can be made, each in the one before it. -/
theorem WellFormed.attachable_missing (h : tree.WellFormed) (hpath : IsNormal path) :
    tree.Attachable (missing.map fun p => (p, Node.emptyDirectory)) := by
  obtain ⟨hfiles, rfl⟩ := missingAncestors_eq_ok_iff.mp hmissing
  intro before q node behind hsplit
  obtain ⟨front, rest, hfilter, rfl, hcons⟩ := List.map_eq_append_iff.mp hsplit
  obtain ⟨q', back, rfl, heq, rfl⟩ := List.map_eq_cons_iff.mp hcons
  obtain ⟨rfl, rfl⟩ := Prod.mk.inj heq
  have hmem : q' ∈ (ancestors path).filter (!tree.has ·) := by rw [hfilter]; simp
  obtain ⟨hancestor, hfree⟩ := List.mem_filter.mp hmem
  have hfree : tree.has q' = false := by simpa using hfree
  have hnormal := (hpath.mem_ancestors_iff.mp hancestor).1
  have hroot := h.ne_root_of_free hfree
  have hordered := (ancestors_ordered hpath).filter (!tree.has ·)
  rw [hfilter, List.pairwise_append, List.pairwise_cons] at hordered
  have hfst : (front.map fun p => (p, Node.emptyDirectory)).map Prod.fst = front := by
    rw [List.map_map]
    exact List.map_id front
  refine ⟨hnormal, rfl, hfree, ?_, ?_⟩
  · rw [hfst]
    intro hfront
    -- no ancestor comes twice, for the number of names grows
    exact absurd (hordered.2.2 q' hfront q' List.mem_cons_self) (Nat.lt_irrefl _)
  -- the directory of an ancestor is one too: it is there, or was missing and came before
  · have hparent : Path.parent q' ∈ ancestors path := by
      have hself := hnormal.parent_mem_ancestors hroot
      rw [hnormal.mem_ancestors_iff] at hself
      obtain ⟨-, hbegins, hne⟩ := hpath.mem_ancestors_iff.mp hancestor
      refine hpath.mem_ancestors_iff.mpr ⟨hself.1, hself.2.1.trans hbegins, fun heq => ?_⟩
      rw [heq] at hself
      exact hself.2.2 (hself.2.1.eq_of_length
        (Nat.le_antisymm hself.2.1.length_le hbegins.length_le))
    cases hhas : tree.has (Path.parent q') with
    | true => exact .inl (bare_of_isFileAt_eq_false hhas (hfiles _ hparent))
    | false =>
      -- the directory has fewer names, so it stands in front in the list
      have hshorter : (names (Path.parent q')).length < (names q').length := by
        have := (hnormal.mem_ancestors_iff.mp (hnormal.parent_mem_ancestors hroot)).2
        exact Nat.lt_of_le_of_ne this.1.length_le fun heq => this.2 (this.1.eq_of_length heq)
      have hparentmem : Path.parent q' ∈ (ancestors path).filter (!tree.has ·) :=
        List.mem_filter.mpr ⟨hparent, by rw [hhas]; rfl⟩
      rw [hfilter, List.mem_append, List.mem_cons] at hparentmem
      refine .inr (List.mem_map.mpr ⟨_, ?_, rfl⟩)
      rcases hparentmem with hfront | heq | hbehind
      · exact hfront
      · rw [heq] at hshorter
        exact absurd hshorter (Nat.lt_irrefl _)
      · have := hordered.2.1.1 _ hbehind
        omega

theorem WellFormed.attachDirectories_missing (h : tree.WellFormed) (hpath : IsNormal path) :
    (tree.attachDirectories missing).WellFormed := by
  rw [attachDirectories_eq_attachAll]
  exact h.attachAll (h.attachable_missing hmissing hpath)

/-- Behind the missing directories the path can be attached, if it was free. -/
theorem WellFormed.attach_missing (h : tree.WellFormed) (hpath : IsNormal path)
    (hfree : tree.has path = false) {node : Node} (hbare : emptied node = node) :
    ((tree.attachDirectories missing).attach path node).WellFormed := by
  have hroot := h.ne_root_of_free hfree
  refine (h.attachDirectories_missing hmissing hpath).attach hpath ?_ ?_ hbare
  · rw [has_attachDirectories_missing hmissing, hfree, Bool.or_false, decide_eq_false_iff_not]
    intro hmem
    exact (hpath.mem_ancestors_iff.mp hmem).2.2 rfl
  · rw [bare_attachDirectories_missing hmissing, if_pos (hpath.parent_mem_ancestors hroot)]

end Missing

end Tree

end LivePreview
