/-
  LivePreview.Proofs.Tree.Filling
  ───────────────────────────────
  **Filling a tree with files, one after the other.**

  Files can stand together at some paths exactly if none of the paths is the root and none
  is within another (`Path.Compatible`); the order does not matter.  A tree that has been
  filled with a list of files holds those files, the directories above them, and nothing
  else (`Holds`).  Such a tree takes one more file exactly if its path goes with those
  before it (`Holds.exists_createFile_eq_ok_iff`), and then it holds that file as well
  (`Holds.createFile`).
-/
import LivePreview.Proofs.Tree.Renaming
import LivePreview.Proofs.Tree.Resolution

namespace LivePreview

/-! ## §1. Paths that go together -/

namespace Path

/-- Neither of two paths is within the other. -/
def Separate (p q : Text) : Prop :=
  isWithin p q = false ∧ isWithin q p = false

instance (p q : Text) : Decidable (Separate p q) :=
  inferInstanceAs (Decidable (_ ∧ _))

theorem Separate.symm {p q : Text} (h : Separate p q) : Separate q p :=
  ⟨h.2, h.1⟩

/-- There can be a file at every one of the paths. -/
structure Compatible (paths : List Text) : Prop where
  ne_root : ∀ path ∈ paths, path ≠ root
  separate : paths.Pairwise Separate

theorem compatible_nil : Compatible [] :=
  ⟨nofun, .nil⟩

theorem compatible_concat_iff {paths : List Text} {path : Text} :
    Compatible (paths ++ [path])
      ↔ Compatible paths ∧ path ≠ root ∧ ∀ other ∈ paths, Separate other path := by
  constructor
  · rintro ⟨hroot, hseparate⟩
    obtain ⟨hpaths, -, hpath⟩ := List.pairwise_append.mp hseparate
    exact ⟨⟨fun p hp => hroot p (List.mem_append_left _ hp), hpaths⟩, hroot path (by simp),
      fun other hother => hpath other hother path List.mem_cons_self⟩
  · rintro ⟨⟨hroot, hseparate⟩, hne, hpath⟩
    refine ⟨fun p hp => ?_, List.pairwise_append.mpr ⟨hseparate, List.pairwise_singleton _ _, ?_⟩⟩
    · rcases List.mem_append.mp hp with hp | hp
      · exact hroot p hp
      · rwa [List.mem_singleton.mp hp]
    · intro other hother p hp
      rw [List.mem_singleton.mp hp]
      exact hpath other hother

theorem Compatible.of_append {paths more : List Text} (h : Compatible (paths ++ more)) :
    Compatible paths :=
  ⟨fun path hpath => h.ne_root path (List.mem_append_left _ hpath),
    (List.pairwise_append.mp h.separate).1⟩

theorem compatible_perm_iff {paths others : List Text} (hperm : paths.Perm others) :
    Compatible paths ↔ Compatible others := by
  constructor
  · rintro ⟨hroot, hseparate⟩
    exact ⟨fun path hpath => hroot path (hperm.mem_iff.mpr hpath),
      (hperm.pairwise_iff Separate.symm).mp hseparate⟩
  · rintro ⟨hroot, hseparate⟩
    exact ⟨fun path hpath => hroot path (hperm.mem_iff.mp hpath),
      (hperm.pairwise_iff Separate.symm).mpr hseparate⟩

end Path

/-! ## §2. Trees filled with files -/

namespace Tree

open LivePreview.Path (IsNormal ancestors Separate Compatible)

/-- A file is created exactly if its path is free and no file is above it. -/
theorem exists_createFileAt_eq_ok_iff {tree : Tree} {path : Text} {content : Json} :
    (∃ outcome, tree.createFileAt path content = .ok outcome)
      ↔ tree.has path = false ∧ ∀ ancestor ∈ ancestors path, tree.isFileAt ancestor = false := by
  constructor
  · rintro ⟨outcome, hok⟩
    obtain ⟨hfree, missing, hmissing, -⟩ := createFileAt_eq_ok hok
    exact ⟨hfree, (missingAncestors_eq_ok_iff.mp hmissing).1⟩
  · rintro ⟨hfree, hfiles⟩
    have hmissing : tree.missingAncestors path = .ok (tree.absentAncestors path) :=
      missingAncestors_eq_ok_iff.mpr ⟨hfiles, rfl⟩
    unfold createFileAt
    rw [hfree, hmissing]
    exact ⟨_, rfl⟩

/-- Behind a file that has been created there is the file, directories above it, and at every other
path what was there before. -/
theorem bare_createFileAt {tree : Tree} {path : Text} {content : Json} {outcome : Outcome Text}
    (hok : tree.createFileAt path content = .ok outcome) (q : Text) : outcome.tree.bare q
      = if q = path then some (.file content)
        else if q ∈ ancestors path then some Node.emptyDirectory else tree.bare q := by
  obtain ⟨-, missing, hmissing, rfl⟩ := createFileAt_eq_ok hok
  show ((tree.attachDirectories missing).attach path (.file content)).bare q = _
  rw [bare_attach, bare_attachDirectories_missing hmissing]
  rfl

/-- The tree holds just the given files, and the directories above them. -/
structure Holds (tree : Tree) (files : List (Text × Text)) : Prop where
  wellFormed : tree.WellFormed
  file_iff : ∀ path content, tree.get? path = some (.file content)
    ↔ ∃ text, content = .text text ∧ (path, text) ∈ files
  directory_iff : ∀ path, tree.isDirectoryAt path = true
    ↔ path = Path.root ∨ ∃ file ∈ files, path ∈ ancestors file.1
  compatible : Compatible (files.map Prod.fst)

theorem isDirectoryAt_iff {tree : Tree} {path : Text} :
    tree.isDirectoryAt path = true ↔ tree.bare path = some Node.emptyDirectory := by
  unfold isDirectoryAt
  rw [bare_eq_directory_iff, Option.any_eq_true]
  constructor
  · rintro ⟨node, hnode, hdirectory⟩
    cases node with
    | file content => cases hdirectory
    | directory children => exact ⟨children, hnode⟩
  · rintro ⟨children, hnode⟩
    exact ⟨_, hnode, rfl⟩

theorem holds_empty : Tree.empty.Holds [] where
  wellFormed := wellFormed_empty
  file_iff path content := by
    rw [get?_empty]
    split <;> simp [Node.emptyDirectory]
  directory_iff path := by
    rw [isDirectoryAt_iff, bare, get?_empty]
    split <;> simp_all
  compatible := Path.compatible_nil

namespace Holds

variable {tree : Tree} {files : List (Text × Text)} (h : tree.Holds files)
include h

theorem isFileAt_iff (path : Text) : tree.isFileAt path = true ↔ ∃ file ∈ files, file.1 = path := by
  rw [Tree.isFileAt_iff]
  constructor
  · rintro ⟨content, hnode⟩
    obtain ⟨text, -, hmem⟩ := (h.file_iff path content).mp hnode
    exact ⟨_, hmem, rfl⟩
  · rintro ⟨⟨_, text⟩, hmem, rfl⟩
    exact ⟨_, (h.file_iff _ _).mpr ⟨text, rfl, hmem⟩⟩

/-- What is in the tree is the root, a file, or a directory above a file. -/
theorem has_iff (path : Text) : tree.has path = true
    ↔ path = Path.root ∨ ∃ file ∈ files, path = file.1 ∨ path ∈ ancestors file.1 := by
  have hkind : tree.has path = true ↔ tree.isFileAt path = true ∨ tree.isDirectoryAt path = true := by
    unfold has isFileAt isDirectoryAt
    cases tree.get? path with
    | none => simp
    | some node => cases node <;> simp [Node.isFile, Node.isDirectory, Node.kind]
  rw [hkind, h.isFileAt_iff, h.directory_iff]
  constructor
  · rintro (⟨file, hmem, rfl⟩ | hroot | ⟨file, hmem, habove⟩)
    · exact .inr ⟨file, hmem, .inl rfl⟩
    · exact .inl hroot
    · exact .inr ⟨file, hmem, .inr habove⟩
  · rintro (hroot | ⟨file, hmem, rfl | habove⟩)
    · exact .inr (.inl hroot)
    · exact .inl ⟨file, hmem, rfl⟩
    · exact .inr (.inr ⟨file, hmem, habove⟩)

theorem has_eq_false_iff (path : Text) : tree.has path = false
    ↔ path ≠ Path.root ∧ ∀ file ∈ files, path ≠ file.1 ∧ path ∉ ancestors file.1 := by
  rw [Bool.eq_false_iff, Ne, h.has_iff, not_or]
  simp only [not_exists, not_and, not_or]

theorem isNormal_of_mem {file : Text × Text} (hmem : file ∈ files) : IsNormal file.1 :=
  h.wellFormed.grounded.isNormal _ ((h.has_iff _).mpr (.inr ⟨file, hmem, .inl rfl⟩))

/-- **The tree takes one more file exactly if its path goes with those before it.** -/
theorem exists_createFileAt_eq_ok_iff {path : Text} (hpath : IsNormal path) {content : Json} :
    (∃ outcome, tree.createFileAt path content = .ok outcome)
      ↔ Compatible (files.map Prod.fst ++ [path]) := by
  rw [Tree.exists_createFileAt_eq_ok_iff, Path.compatible_concat_iff]
  constructor
  · rintro ⟨hfree, habove⟩
    obtain ⟨hroot, hapart⟩ := (h.has_eq_false_iff path).mp hfree
    refine ⟨h.compatible, hroot, fun other hother => ?_⟩
    obtain ⟨file, hmem, rfl⟩ := List.mem_map.mp hother
    have hfile := h.isNormal_of_mem hmem
    refine ⟨Bool.eq_false_iff.mpr fun hwithin => ?_, Bool.eq_false_iff.mpr fun hwithin => ?_⟩
    -- the new path would be a path of the tree, or there would be a file above it
    · rcases (hfile.isWithin_iff_mem_ancestors hpath).mp hwithin with heq | hup
      · exact (hapart file hmem).1 heq
      · exact (hapart file hmem).2 hup
    · rcases (hpath.isWithin_iff_mem_ancestors hfile).mp hwithin with heq | hup
      · exact (hapart file hmem).1 heq.symm
      · exact Bool.eq_false_iff.mp (habove _ hup) ((h.isFileAt_iff _).mpr ⟨file, hmem, rfl⟩)
  · rintro ⟨-, hroot, hseparate⟩
    constructor
    · refine Bool.eq_false_iff.mpr fun hhas => ?_
      rcases (h.has_iff path).mp hhas with heq | ⟨file, hmem, hup⟩
      · exact hroot heq
      · have hwithin := ((h.isNormal_of_mem hmem).isWithin_iff_mem_ancestors hpath).mpr hup
        exact Bool.eq_false_iff.mp (hseparate _ (List.mem_map_of_mem hmem)).1 hwithin
    · intro ancestor hup
      refine Bool.eq_false_iff.mpr fun hfile => ?_
      obtain ⟨file, hmem, rfl⟩ := (h.isFileAt_iff ancestor).mp hfile
      exact Bool.eq_false_iff.mp (hseparate _ (List.mem_map_of_mem hmem)).2
        (hpath.isWithin_of_mem_ancestors hup)

section CreateFileAt

variable {path text : Text} {outcome : Outcome Text} (hok : tree.createFileAt path (.text text) = .ok outcome)
include hok

theorem file_iff_createFileAt (q : Text) (content : Json) : outcome.tree.get? q = some (.file content)
    ↔ ∃ other, content = .text other ∧ (q, other) ∈ files ++ [(path, text)] := by
  obtain ⟨hfree, hfiles⟩ := Tree.exists_createFileAt_eq_ok_iff.mp ⟨outcome, hok⟩
  rw [← bare_eq_file_iff, bare_createFileAt hok]
  by_cases heq : q = path
  · subst heq
    have hnew : ∀ other, (q, other) ∉ files := fun other hmem =>
      (((h.has_eq_false_iff q).mp hfree).2 _ hmem).1 rfl
    simp [hnew, eq_comm]
  · rw [if_neg heq]
    by_cases hup : q ∈ ancestors path
    · have hnone : ∀ other, (q, other) ∉ files := by
        intro other hmem
        have hfile := (h.isFileAt_iff q).mpr ⟨_, hmem, rfl⟩
        rw [hfiles q hup] at hfile
        cases hfile
      simp [hup, heq, hnone, Node.emptyDirectory]
    · rw [if_neg hup, bare_eq_file_iff, h.file_iff]
      simp [heq]

theorem directory_iff_createFileAt (hpath : IsNormal path) (q : Text) :
    outcome.tree.isDirectoryAt q = true
      ↔ q = Path.root ∨ ∃ file ∈ files ++ [(path, text)], q ∈ ancestors file.1 := by
  obtain ⟨hfree, -⟩ := Tree.exists_createFileAt_eq_ok_iff.mp ⟨outcome, hok⟩
  have hold := h.directory_iff q
  rw [isDirectoryAt_iff] at hold ⊢
  rw [bare_createFileAt hok]
  by_cases heq : q = path
  · subst heq
    obtain ⟨hroot, hapart⟩ := (h.has_eq_false_iff q).mp hfree
    have hself : q ∉ ancestors q := fun hmem => (hpath.mem_ancestors_iff.mp hmem).2.2 rfl
    have hnone : ¬∃ file ∈ files ++ [(q, text)], q ∈ ancestors file.1 := by
      rintro ⟨file, hmem, hup⟩
      rcases List.mem_append.mp hmem with hmem | hmem
      · exact (hapart file hmem).2 hup
      · rw [List.mem_singleton.mp hmem] at hup
        exact hself hup
    rw [if_pos rfl, or_iff_right hroot]
    exact iff_of_false (by simp [Node.emptyDirectory]) hnone
  · rw [if_neg heq]
    by_cases hup : q ∈ ancestors path
    · simp [hup]
    · rw [if_neg hup, hold]
      simp [hup]

/-- **Behind a file that has been created the tree holds that file as well, and nothing else is
new.** -/
theorem createFileAt (hpath : IsNormal path) : outcome.tree.Holds (files ++ [(path, text)]) where
  wellFormed := h.wellFormed.createFileAt hpath hok
  file_iff := h.file_iff_createFileAt hok
  directory_iff := h.directory_iff_createFileAt hok hpath
  compatible := by
    rw [List.map_append]
    exact (h.exists_createFileAt_eq_ok_iff hpath).mp ⟨outcome, hok⟩

end CreateFileAt

/-- It does not matter in which order the files are given. -/
theorem perm {others : List (Text × Text)} (hperm : files.Perm others) : tree.Holds others where
  wellFormed := h.wellFormed
  file_iff path content := by simp only [h.file_iff, hperm.mem_iff]
  directory_iff path := by simp only [h.directory_iff, hperm.mem_iff]
  compatible := (Path.compatible_perm_iff (hperm.map Prod.fst)).mp h.compatible

/-- The files of the tree are the given ones. -/
theorem files_perm : tree.files.Perm (files.map fun file => (file.1, .text file.2)) := by
  have hnodup : (files.map Prod.fst).Nodup := by
    refine (h.compatible.separate.imp_of_mem fun {p q} hp hq hseparate => ?_)
    rintro rfl
    obtain ⟨file, hmem, rfl⟩ := List.mem_map.mp hp
    exact Bool.eq_false_iff.mp hseparate.1 (h.isNormal_of_mem hmem).isWithin_self
  refine (List.perm_ext_iff_of_nodup (nodup_files tree).of_map ?_).mpr fun ⟨path, content⟩ => ?_
  · refine List.Nodup.of_map Prod.fst ?_
    rw [List.map_map]
    exact hnodup
  · rw [mem_files, h.file_iff, List.mem_map]
    constructor
    · rintro ⟨text, rfl, hmem⟩
      exact ⟨_, hmem, rfl⟩
    · rintro ⟨⟨q, text⟩, hmem, heq⟩
      obtain ⟨rfl, rfl⟩ := Prod.mk.inj heq
      exact ⟨text, rfl, hmem⟩

end Holds

end Tree

end LivePreview
