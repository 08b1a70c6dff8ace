/-
  LivePreview.Proofs.Tree.Renaming
  ────────────────────────────────
  **Renaming is an exact move.**

  A rename is accepted exactly if what is to be moved exists and is not the root, and the
  new path is free, outside of the old one and beneath no file (`Admits`).  Behind it
  each path of the tree is a path that was not within the old one, a path within the old
  one with the new one in its place, or a directory above the new path that has been
  made; and with their paths the nodes keep what they are (`Moved`).

  If no directory had to be made, the rename back is accepted too.  It restores the
  tree, because both trees are well-formed and agree in their bare nodes
  (`WellFormed.restored_of_rename`).
-/
import LivePreview.Proofs.Tree.Reachable

namespace LivePreview.Tree

open LivePreview.Path (IsNormal ancestors rebase)

variable {tree : Tree} {old new : Text}

/-! ## §1. Which renames are accepted -/

/-- What stands at `old` may be moved to `new`. -/
structure Admits (tree : Tree) (old new : Text) : Prop where
  old_ne_root : old ≠ Path.root
  has_old : tree.has old = true
  free : tree.has new = false
  not_within : Path.isWithin new old = false
  no_file : ∀ ancestor ∈ ancestors new, tree.isFileAt ancestor = false

/-- The directories above a path that are not there. -/
def absentAncestors (tree : Tree) (path : Text) : List Text :=
  (ancestors path).filter (!tree.has ·)

theorem Admits.missingAncestors_eq (h : tree.Admits old new) :
    tree.missingAncestors new = .ok (tree.absentAncestors new) :=
  missingAncestors_eq_ok_iff.mpr ⟨h.no_file, rfl⟩

theorem Movable.admits {missing : List Text} (h : tree.Movable old new missing) :
    tree.Admits old new :=
  ⟨h.old_ne_root, h.has_old, h.free, h.not_within, (missingAncestors_eq_ok_iff.mp h.missingAncestors).1⟩

theorem Admits.rename_eq {oldPath newPath : Text}
    (h : tree.Admits (Path.normalize oldPath) (Path.normalize newPath)) :
    ∃ kind, tree.rename oldPath newPath = .ok (tree.renameAt (Path.normalize oldPath)
      (Path.normalize newPath) kind (tree.absentAncestors (Path.normalize newPath))) := by
  obtain ⟨source, hsource⟩ := has_eq_true_iff.mp h.has_old
  have hrequire : tree.require (Path.normalize oldPath) = .ok source := require_eq_ok_iff.mpr hsource
  refine ⟨source.kind, ?_⟩
  unfold rename
  dsimp only
  rw [if_neg h.old_ne_root, hrequire]
  dsimp only
  rw [h.free, h.not_within, Bool.and_false, h.missingAncestors_eq]
  rfl

/-- **A rename is accepted exactly if the tree admits it.** -/
theorem exists_rename_eq_ok_iff {oldPath newPath : Text} :
    (∃ outcome, tree.rename oldPath newPath = .ok outcome)
      ↔ tree.Admits (Path.normalize oldPath) (Path.normalize newPath) := by
  constructor
  · rintro ⟨outcome, hok⟩
    obtain ⟨source, missing, -, hmove, -⟩ := rename_eq_ok hok
    exact hmove.admits
  · intro h
    obtain ⟨kind, hok⟩ := h.rename_eq
    exact ⟨_, hok⟩

/-! ## §2. What a rename does -/

/-- What was within `old` stands within `new`, below directories that have been made where there
were none, and all else is as it was. -/
structure Moved (tree : Tree) (old new : Text) (after : Tree) : Prop where
  has_iff : ∀ q, after.has q = true ↔
    tree.has q = true ∧ Path.isWithin q old = false
      ∨ (∃ p, tree.has p = true ∧ Path.isWithin p old = true ∧ q = rebase p old new)
      ∨ q ∈ tree.absentAncestors new
  /-- A moved node keeps its kind and content. -/
  bare_moved : ∀ p, tree.has p = true → Path.isWithin p old = true →
    after.bare (rebase p old new) = tree.bare p
  /-- So does one that stays. -/
  bare_kept : ∀ q, tree.has q = true → Path.isWithin q old = false → after.bare q = tree.bare q
  bare_made : ∀ q ∈ tree.absentAncestors new, after.bare q = some Node.emptyDirectory

section Move

/-- Nothing of the tree is within a free path. -/
theorem WellFormed.not_within_of_free (h : tree.WellFormed) (hnew : IsNormal new)
    (hfree : tree.has new = false) {q : Text} (hq : tree.has q = true) : Path.isWithin q new = false := by
  rw [Bool.eq_false_iff]
  intro hwithin
  rw [h.has_of_isWithin hq hnew hwithin] at hfree
  cases hfree

variable {missing : List Text} (h : tree.WellFormed) (hmove : tree.Movable old new missing)
include h hmove

variable (kind : NodeKind)

theorem WellFormed.bare_renameAt_moved {p : Text} (hp : tree.has p = true)
    (hwithin : Path.isWithin p old = true) :
    (tree.renameAt old new kind missing).tree.bare (rebase p old new) = tree.bare p := by
  have hnormal := h.grounded.isNormal p hp
  have hold := h.isNormal_old hmove
  have hnew := hmove.isNormal_new
  rw [h.bare_renameAt hmove kind (Path.isNormal_rebase hnormal hold hnew hmove.old_ne_root hwithin),
    if_pos (Path.isWithin_rebase hnormal hold hnew hmove.old_ne_root hwithin),
    Path.rebase_rebase hnormal hold hnew hmove.old_ne_root hwithin (h.new_ne_root hmove)]

theorem WellFormed.bare_renameAt_kept {q : Text} (hq : tree.has q = true)
    (hwithin : Path.isWithin q old = false) :
    (tree.renameAt old new kind missing).tree.bare q = tree.bare q := by
  rw [h.bare_renameAt hmove kind (h.grounded.isNormal q hq), h.not_within_of_free hmove.isNormal_new hmove.free hq,
    hwithin,
    if_neg Bool.false_ne_true, if_neg Bool.false_ne_true]
  split
  · next hmem =>
    -- what is there above the new path is a directory
    have hnofile := (missingAncestors_eq_ok_iff.mp hmove.missingAncestors).1 q hmem
    exact (bare_of_isFileAt_eq_false hq hnofile).symm
  · rfl

theorem WellFormed.bare_renameAt_made {q : Text} (hq : q ∈ ancestors new) :
    (tree.renameAt old new kind missing).tree.bare q = some Node.emptyDirectory := by
  rw [h.bare_renameAt hmove kind (hmove.isNormal_new.mem_ancestors_iff.mp hq).1,
    hmove.isNormal_new.not_within_of_mem_ancestors hq, h.not_within_of_mem_ancestors hmove hq,
    if_neg Bool.false_ne_true, if_neg Bool.false_ne_true, if_pos hq]

theorem WellFormed.has_renameAt_iff (q : Text) :
    (tree.renameAt old new kind missing).tree.has q = true ↔
      tree.has q = true ∧ Path.isWithin q old = false
        ∨ (∃ p, tree.has p = true ∧ Path.isWithin p old = true ∧ q = rebase p old new)
        ∨ q ∈ tree.absentAncestors new := by
  have hold := h.isNormal_old hmove
  have hnew := hmove.isNormal_new
  constructor
  · intro hq
    have hnormal := (h.renameAt hmove kind).grounded.isNormal q hq
    rw [← isSome_bare, h.bare_renameAt hmove kind hnormal] at hq
    split at hq
    · next hwithin =>
      -- it has been moved from where the rename back leads to
      have hnewroot := h.new_ne_root hmove
      rw [isSome_bare] at hq
      exact .inr (.inl ⟨rebase q new old, hq, Path.isWithin_rebase hnormal hnew hold hnewroot hwithin,
        (Path.rebase_rebase hnormal hnew hold hnewroot hwithin hmove.old_ne_root).symm⟩)
    split at hq
    · cases hq
    · next hwithin =>
      by_cases hhas : tree.has q = true
      · exact .inl ⟨hhas, Bool.eq_false_iff.mpr hwithin⟩
      · split at hq
        · next hmem => exact .inr (.inr (List.mem_filter.mpr ⟨hmem, by simp [hhas]⟩))
        · rw [isSome_bare] at hq
          exact absurd hq hhas
  · rintro (⟨hq, hwithin⟩ | ⟨p, hp, hwithin, rfl⟩ | hmem)
    · rw [← isSome_bare, h.bare_renameAt_kept hmove kind hq hwithin, isSome_bare, hq]
    · rw [← isSome_bare, h.bare_renameAt_moved hmove kind hp hwithin, isSome_bare, hp]
    · exact has_of_bare (h.bare_renameAt_made hmove kind (List.mem_filter.mp hmem).1)

theorem WellFormed.moved_renameAt : tree.Moved old new (tree.renameAt old new kind missing).tree where
  has_iff := h.has_renameAt_iff hmove kind
  bare_moved _ := h.bare_renameAt_moved hmove kind
  bare_kept _ := h.bare_renameAt_kept hmove kind
  bare_made _ hmem := h.bare_renameAt_made hmove kind (List.mem_filter.mp hmem).1

end Move

/-! ## §3. The way back -/

/-- What is above a path of the tree is a directory. -/
theorem WellFormed.bare_of_mem_ancestors (h : tree.WellFormed) {path q : Text} (hpath : tree.has path = true)
    (hq : q ∈ ancestors path) : tree.bare q = some Node.emptyDirectory := by
  obtain ⟨hnormal, hbegins, hne⟩ := (h.grounded.isNormal path hpath).mem_ancestors_iff.mp hq
  exact h.bare_of_begins hpath hnormal hbegins hne

/-- There is nothing to be made above a path whose directory is there. -/
theorem WellFormed.absentAncestors_eq_nil (h : tree.WellFormed) (hnew : IsNormal new)
    (hparent : tree.has (Path.parent new) = true) : tree.absentAncestors new = [] := by
  refine List.filter_eq_nil_iff.mpr fun q hq => ?_
  obtain ⟨hnormal, hbegins, hne⟩ := hnew.mem_ancestors_iff.mp hq
  have hwithin : Path.isWithin (Path.parent new) q = true := by
    rw [hnew.parent.isWithin_iff hnormal, hnew.names_parent]
    exact Path.prefix_dropLast_of_ne hbegins hne
  simp [h.has_of_isWithin hparent hnormal hwithin]

section Back

variable {after : Tree} (h : tree.WellFormed) (hadmits : tree.Admits old new) (hold : IsNormal old)
  (hnew : IsNormal new) (hmoved : tree.Moved old new after)
include h hadmits hold hnew hmoved

/-- What has been moved can be moved back. -/
theorem WellFormed.admits_back : after.Admits new old := by
  have hwithin : Path.isWithin old new = false := h.not_within_of_free hnew hadmits.free hadmits.has_old
  refine ⟨h.ne_root_of_free hadmits.free, ?_, ?_, hwithin, fun ancestor hmem => ?_⟩
  · have htop := hmoved.bare_moved old hadmits.has_old hold.isWithin_self
    rw [rebase, if_pos rfl] at htop
    rw [← isSome_bare, htop, isSome_bare, hadmits.has_old]
  · rw [Bool.eq_false_iff, ne_eq, hmoved.has_iff, hold.isWithin_self]
    rintro (⟨-, houtside⟩ | ⟨p, hp, hpwithin, heq⟩ | hmem)
    · cases houtside
    · -- what has been moved is within the new path, and the old path is not
      have hinside := Path.isWithin_rebase (h.grounded.isNormal p hp) hold hnew hadmits.old_ne_root hpwithin
      rw [← heq, hwithin] at hinside
      cases hinside
    · have habsent := (List.mem_filter.mp hmem).2
      rw [hadmits.has_old] at habsent
      cases habsent
  · have hdirectory := h.bare_of_mem_ancestors hadmits.has_old hmem
    have hkept := hmoved.bare_kept ancestor (has_of_bare hdirectory) (hold.not_within_of_mem_ancestors hmem)
    exact isFileAt_eq_false_of_bare (hkept.trans hdirectory)

/-- The paths of the tree are those behind the way back, if nothing had to be made. -/
theorem WellFormed.has_of_moved_back {back : Tree} (hback : after.Moved new old back)
    (hparent : tree.has (Path.parent new) = true) {q : Text} (hq : back.has q = true) :
    tree.has q = true := by
  have hmade := h.absentAncestors_eq_nil hnew hparent
  have hinside : ∀ p, tree.has p = true → Path.isWithin p old = true →
      Path.isWithin (rebase p old new) new = true := fun p hp =>
    Path.isWithin_rebase (h.grounded.isNormal p hp) hold hnew hadmits.old_ne_root
  rcases (hback.has_iff q).mp hq with ⟨hafter, houtside⟩ | ⟨p, hafter, hpwithin, rfl⟩ | hmem
  · rcases (hmoved.has_iff q).mp hafter with ⟨hhas, -⟩ | ⟨p, hp, hpwithin, rfl⟩ | hmem
    · exact hhas
    · rw [hinside p hp hpwithin] at houtside
      cases houtside
    · rw [hmade] at hmem
      cases hmem
  · -- it is moved back to where it came from
    rcases (hmoved.has_iff p).mp hafter with ⟨hhas, -⟩ | ⟨origin, horigin, horiginwithin, rfl⟩ | hmem
    · rw [h.not_within_of_free hnew hadmits.free hhas] at hpwithin
      cases hpwithin
    · rwa [Path.rebase_rebase (h.grounded.isNormal origin horigin) hold hnew hadmits.old_ne_root
        horiginwithin (h.ne_root_of_free hadmits.free)]
    · rw [hmade] at hmem
      cases hmem
  · exact has_of_bare (h.bare_of_mem_ancestors hadmits.has_old (List.mem_filter.mp hmem).1)

/-- **A move and the move back restore a tree in which nothing had to be made.** -/
theorem WellFormed.eq_of_moved_back {back : Tree} (hback : after.Moved new old back)
    (hformed : back.WellFormed) (hparent : tree.has (Path.parent new) = true) : back = tree := by
  refine hformed.ext h fun q => ?_
  cases hq : tree.has q with
  | false =>
    have hgone : back.has q = false := Bool.eq_false_iff.mpr fun hhas => by
      rw [h.has_of_moved_back hadmits hold hnew hmoved hback hparent hhas] at hq
      cases hq
    rw [bare_eq_none_iff.mpr hgone, bare_eq_none_iff.mpr hq]
  | true =>
    have hnormal := h.grounded.isNormal q hq
    have hhas : ∀ p, after.bare p = tree.bare q → after.has p = true := fun p heq => by
      rw [← isSome_bare, heq, isSome_bare, hq]
    cases hwithin : Path.isWithin q old with
    | true =>
      have hthere := hmoved.bare_moved q hq hwithin
      have hround := hback.bare_moved _ (hhas _ hthere)
        (Path.isWithin_rebase hnormal hold hnew hadmits.old_ne_root hwithin)
      rwa [Path.rebase_rebase hnormal hold hnew hadmits.old_ne_root hwithin
        (h.ne_root_of_free hadmits.free), hthere] at hround
    | false =>
      have hthere := hmoved.bare_kept q hq hwithin
      have houtside := h.not_within_of_free hnew hadmits.free hq
      rw [hback.bare_kept q (hhas q hthere) houtside, hthere]

end Back

theorem WellFormed.moved_of_rename (h : tree.WellFormed) {oldPath newPath : Text} {outcome : Outcome Text}
    (hok : tree.rename oldPath newPath = .ok outcome) :
    tree.Moved (Path.normalize oldPath) (Path.normalize newPath) outcome.tree := by
  obtain ⟨source, missing, -, hmove, rfl⟩ := rename_eq_ok hok
  exact h.moved_renameAt hmove source.kind

/-- The rename back is accepted and restores the tree, if nothing had to be made. -/
theorem WellFormed.restored_of_rename (h : tree.WellFormed) {oldPath newPath : Text}
    {outcome : Outcome Text} (hok : tree.rename oldPath newPath = .ok outcome)
    (hparent : tree.has (Path.parent (Path.normalize newPath)) = true) :
    ∃ back, outcome.tree.rename newPath oldPath = .ok back ∧ back.tree = tree := by
  have hold := Path.isNormal_normalize oldPath
  have hnew := Path.isNormal_normalize newPath
  have hadmits := exists_rename_eq_ok_iff.mp ⟨outcome, hok⟩
  have hmoved := h.moved_of_rename hok
  obtain ⟨back, hback⟩ := exists_rename_eq_ok_iff.mpr (h.admits_back hadmits hold hnew hmoved)
  have hformed := h.rename hok
  exact ⟨back, hback, h.eq_of_moved_back hadmits hold hnew hmoved (hformed.moved_of_rename hback)
    (hformed.rename hback) hparent⟩

/-! ## §4. Behind every run -/

/-- Behind every run a rename is accepted exactly if the old path is there and is not the root, and
the new one is free, outside of the old one and beneath no file.  It moves what is within the old path,
makes the directories above the new one that are not there, and keeps the tree well-formed; and if none
had to be made, the rename back is accepted and restores the tree. -/
theorem rename_exact_of_run {start : Tree} (hstart : start.IsInitial) (edits : List Edit)
    (oldPath newPath : Text) :
    let tree := start.run edits
    let old := Path.normalize oldPath
    let new := Path.normalize newPath
    ((∃ outcome, tree.rename oldPath newPath = .ok outcome) ↔
      old ≠ Path.root ∧ tree.has old = true ∧ tree.has new = false ∧ Path.isWithin new old = false ∧
        ∀ ancestor ∈ ancestors new, tree.isFileAt ancestor = false) ∧
    ∀ outcome, tree.rename oldPath newPath = .ok outcome →
      outcome.tree.WellFormed ∧ tree.Moved old new outcome.tree ∧
        (tree.has (Path.parent new) = true →
          ∃ back, outcome.tree.rename new old = .ok back ∧ back.tree = tree) := by
  intro tree old new
  have hformed : tree.WellFormed := hstart.wellFormed.run edits
  refine ⟨exists_rename_eq_ok_iff.trans ⟨fun h => ?_, fun h => ?_⟩, fun outcome hok => ?_⟩
  · exact ⟨h.old_ne_root, h.has_old, h.free, h.not_within, h.no_file⟩
  · obtain ⟨hroot, hhas, hfree, houtside, hnofile⟩ := h
    exact ⟨hroot, hhas, hfree, houtside, hnofile⟩
  · refine ⟨hformed.rename hok, hformed.moved_of_rename hok, fun hparent => ?_⟩
    -- the paths in normal form are spellings of themselves
    have hback := hformed.restored_of_rename hok hparent
    have hspelled : outcome.tree.rename new old = outcome.tree.rename newPath oldPath := by
      unfold rename
      dsimp only
      rw [Path.isNormal_normalize newPath, Path.isNormal_normalize oldPath]
    rwa [hspelled]

/-- A directory with a file in a directory of its own, and beside it names that begin as its own
does. -/
def siblingEdits : List Edit :=
  [.createFile "/a/b/c.txt" "x", .createFile "/a.txt" "y", .createFile "/ab/d" "z"]

/-- The directory is moved to a path that begins with its own, and back. -/
theorem rename_exact_of_run_siblings :
    ∃ outcome, (Tree.empty.run siblingEdits).rename "a/" "/a.txt.d" = .ok outcome ∧
      outcome.tree.bare "/a.txt.d/b/c.txt" = some (.file (.text "x")) ∧
      outcome.tree.has "/a" = false ∧ outcome.tree.bare "/ab/d" = some (.file (.text "z")) ∧
        ∃ back, outcome.tree.rename "/a.txt.d" "/a" = .ok back ∧ back.tree = Tree.empty.run siblingEdits := by
  have hexact := rename_exact_of_run (.inl rfl) siblingEdits "a/" "/a.txt.d"
  obtain ⟨outcome, hok⟩ := hexact.1.mpr (by decide)
  obtain ⟨-, hmoved, hback⟩ := hexact.2 outcome hok
  have hcontent := hmoved.bare_moved "/a/b/c.txt" (by decide) (by decide)
  have hkept := hmoved.bare_kept "/ab/d" (by decide) (by decide)
  obtain ⟨back, hrestored⟩ := hback (by decide)
  -- the way back is open because the old path is free
  have hfree := (exists_rename_eq_ok_iff.mp ⟨back, hrestored.1⟩).free
  exact ⟨outcome, hok, hcontent, hfree, hkept, back, hrestored⟩

end LivePreview.Tree
