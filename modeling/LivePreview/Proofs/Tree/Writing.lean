/-
  LivePreview.Proofs.Tree.Writing
  ───────────────────────────────
  **What is written is read, and nothing else changes.**

  A file is written in two ways.  `createFile` needs a free path; `writeFile` takes an
  existing file as well, and leaves it to `createFile` if there is none.  Neither writes
  over a directory or beneath a file (`exists_writeFile_eq_ok_iff`).

  Behind both of them there is the same tree, up to the children of directories:

      bare after q  =  the file                 at the path
                       an empty directory       at what is above the path
                       bare before q            elsewhere

  For `createFile` this says what it makes (`bare_createFileAt`).  For a file that is only
  given another content it says nothing about what is above it, where directories have been
  before (`WellFormed.bare_writeFile`).  So every spelling of the path is read as what was
  written, and no other node has come, gone or changed (`Written`).
-/
import LivePreview.Proofs.Module.Cache
import LivePreview.Proofs.Tree.Filling

namespace LivePreview.Tree

open LivePreview.Path (IsNormal ancestors)

variable {tree : Tree} {path content : Text} {outcome : Outcome Text}

/-! ## §1. Which writes are accepted -/

/-- A path in normal form is its own spelling. -/
theorem createFile_normalize (tree : Tree) (path : Text) (content : Json) :
    tree.createFile (Path.normalize path) content = tree.createFileAt (Path.normalize path) content := by
  unfold createFile
  rw [Path.isNormal_normalize path]

/-- **A file is written exactly if there is no directory at its path and no file above it.** -/
theorem WellFormed.exists_writeFile_eq_ok_iff (h : tree.WellFormed) {content : Json} :
    (∃ outcome, tree.writeFile path content = .ok outcome)
      ↔ tree.isDirectoryAt (Path.normalize path) = false
        ∧ ∀ ancestor ∈ ancestors (Path.normalize path), tree.isFileAt ancestor = false := by
  unfold Tree.writeFile isDirectoryAt
  dsimp only
  cases hnode : tree.get? (Path.normalize path) with
  | none =>
    have hfree : tree.has (Path.normalize path) = false := by rw [has, hnode, Option.isSome_none]
    dsimp only
    rw [createFile_normalize, exists_createFileAt_eq_ok_iff]
    exact ⟨fun haccepted => ⟨rfl, haccepted.2⟩, fun haccepted => ⟨hfree, haccepted.2⟩⟩
  | some node =>
    cases node with
    | directory children =>
      constructor
      · rintro ⟨outcome, hok⟩
        cases hok
      · rintro ⟨hnone, -⟩
        cases hnone
    | file current =>
      -- above a file that is there are directories
      have hhas : tree.has (Path.normalize path) = true := has_eq_true_iff.mpr ⟨_, hnode⟩
      refine iff_of_true ?_ ⟨rfl, fun ancestor habove =>
        isFileAt_eq_false_of_bare (h.bare_of_mem_ancestors hhas habove)⟩
      dsimp only
      split
      · exact ⟨_, rfl⟩
      · exact ⟨_, rfl⟩

/-! ## §2. What a write leaves -/

/-- Behind a file that has been written there is the file, directories above it, and at every other path
what was there before. -/
theorem WellFormed.bare_writeFile (h : tree.WellFormed)
    (hok : tree.writeFile path (.text content) = .ok outcome) (q : Text) : outcome.tree.bare q
      = if q = Path.normalize path then some (.file (.text content))
        else if q ∈ ancestors (Path.normalize path) then some Node.emptyDirectory else tree.bare q := by
  rcases writeFile_eq_ok hok with hcreate | ⟨current, hfile, hcases⟩
  · rw [Path.isNormal_normalize path] at hcreate
    exact bare_createFileAt hcreate q
  · have hbare : outcome.tree.bare q
        = if q = Path.normalize path then some (.file (.text content)) else tree.bare q := by
      rcases hcases with ⟨hagrees, rfl⟩ | ⟨-, rfl⟩
      · -- a content that agrees is the same
        rw [Module.agrees_text_iff.mp hagrees] at hfile
        split
        · next heq =>
          rw [heq]
          exact bare_eq_file_iff.mpr hfile
        · rfl
      · exact bare_insert tree _ _ q
    have hhas : tree.has (Path.normalize path) = true := has_eq_true_iff.mpr ⟨_, hfile⟩
    rw [hbare]
    split
    · rfl
    split
    · next habove => exact h.bare_of_mem_ancestors hhas habove
    · rfl

/-- What was written at a path is read, and around it nothing has changed but for the directories that
were made above it. -/
structure Written (tree : Tree) (path content : Text) (after : Tree) : Prop where
  read_eq : ∀ spelling, Path.normalize spelling = path → after.read spelling = .ok (.text content)
  isDirectoryAt_made : ∀ q ∈ tree.absentAncestors path, after.isDirectoryAt q = true
  /-- Another node keeps its kind and content, and there is none where there was none. -/
  bare_kept : ∀ q, q ≠ path → q ∉ tree.absentAncestors path → after.bare q = tree.bare q

theorem written_of_bare {after : Tree} (hpath : IsNormal path)
    (hnofile : ∀ ancestor ∈ ancestors path, tree.isFileAt ancestor = false)
    (hbare : ∀ q, after.bare q = if q = path then some (.file (.text content))
      else if q ∈ ancestors path then some Node.emptyDirectory else tree.bare q) :
    tree.Written path content after where
  read_eq spelling hspelling := by
    have hfile : after.bare path = some (.file (.text content)) := by rw [hbare, if_pos rfl]
    refine read_eq_ok ?_
    rw [hspelling]
    exact bare_eq_file_iff.mp hfile
  isDirectoryAt_made q hmade := by
    have habove : q ∈ ancestors path := (List.mem_filter.mp hmade).1
    have hne : q ≠ path := by
      rintro rfl
      exact (hpath.mem_ancestors_iff.mp habove).2.2 rfl
    rw [isDirectoryAt_iff, hbare, if_neg hne, if_pos habove]
  bare_kept q hne hkept := by
    rw [hbare, if_neg hne]
    split
    · next habove =>
      -- what is above the path and has not been made was there before, and was no file
      have hhas : tree.has q = true := by
        cases hq : tree.has q with
        | true => rfl
        | false => exact absurd (List.mem_filter.mpr ⟨habove, by rw [hq]; rfl⟩) hkept
      exact (bare_of_isFileAt_eq_false hhas (hnofile q habove)).symm
    · rfl

/-- A file that is created is written. -/
theorem written_createFile (hok : tree.createFile path (.text content) = .ok outcome) :
    tree.Written (Path.normalize path) content outcome.tree :=
  written_of_bare (Path.isNormal_normalize path) (exists_createFileAt_eq_ok_iff.mp ⟨outcome, hok⟩).2
    (bare_createFileAt hok)

theorem WellFormed.written_writeFile (h : tree.WellFormed)
    (hok : tree.writeFile path (.text content) = .ok outcome) :
    tree.Written (Path.normalize path) content outcome.tree :=
  written_of_bare (Path.isNormal_normalize path) (h.exists_writeFile_eq_ok_iff.mp ⟨outcome, hok⟩).2
    (h.bare_writeFile hok)

/-! ## §3. Behind every run -/

/-- Behind every run a file is written exactly if there is no directory at its path and no file above it,
and created exactly if there is nothing at its path and no file above it.  Then every spelling of the path
is read as what was written, the directories above it that were not there are, and every other node is
what it was. -/
theorem write_and_create_of_run {start : Tree} (hstart : start.IsInitial) (edits : List Edit)
    (path content : Text) :
    let tree := start.run edits
    let target := Path.normalize path
    ((∃ outcome, tree.writeFile path (.text content) = .ok outcome) ↔
      tree.isDirectoryAt target = false ∧ ∀ ancestor ∈ ancestors target, tree.isFileAt ancestor = false) ∧
    ((∃ outcome, tree.createFile path (.text content) = .ok outcome) ↔
      tree.has target = false ∧ ∀ ancestor ∈ ancestors target, tree.isFileAt ancestor = false) ∧
    (∀ outcome, tree.writeFile path (.text content) = .ok outcome →
      tree.Written target content outcome.tree) ∧
    ∀ outcome, tree.createFile path (.text content) = .ok outcome →
      tree.Written target content outcome.tree := by
  intro tree target
  have hformed : tree.WellFormed := hstart.wellFormed.run edits
  exact ⟨hformed.exists_writeFile_eq_ok_iff, exists_createFileAt_eq_ok_iff,
    fun _ hok => hformed.written_writeFile hok, fun _ hok => written_createFile hok⟩

/-- A file, and a directory beside it. -/
def shadowedEdits : List Edit :=
  [.createFile "/src/a" "x", .createDirectory "/lib"]

/-- A file is written below directories that have to be made, the first of them with a name that goes on
from that of the other file; nothing is written over a directory or created beneath a file. -/
theorem write_and_create_of_run_shadowed :
    (∃ outcome, (Tree.empty.run shadowedEdits).writeFile "src\\ab/c//d" (.text "new") = .ok outcome ∧
      outcome.tree.read "/src/./ab/c/d" = .ok (.text "new") ∧ outcome.tree.isDirectoryAt "/src/ab/c" = true ∧
        outcome.tree.bare "/src/a" = some (.file (.text "x"))) ∧
    (¬ ∃ outcome, (Tree.empty.run shadowedEdits).writeFile "/lib" (.text "new") = .ok outcome) ∧
    ¬ ∃ outcome, (Tree.empty.run shadowedEdits).createFile "/src/a/b" (.text "new") = .ok outcome := by
  have hexact := fun path => write_and_create_of_run (.inl rfl : Tree.empty.IsInitial) shadowedEdits path "new"
  refine ⟨?_, ?_, ?_⟩
  · obtain ⟨outcome, hok⟩ := (hexact "src\\ab/c//d").1.mpr (by decide)
    have hwritten := (hexact "src\\ab/c//d").2.2.1 outcome hok
    exact ⟨outcome, hok, hwritten.read_eq _ (by decide), hwritten.isDirectoryAt_made _ (by decide),
      hwritten.bare_kept "/src/a" (by decide) (by decide)⟩
  · rw [(hexact "/lib").1]
    decide
  · rw [(hexact "/src/a/b").2.1]
    decide

end LivePreview.Tree
