/-
  LivePreview.Proofs.Tree.Resolution
  ──────────────────────────────────
  **An import means the first of its candidates that is a file.**

  A specifier is resolved to the first candidate that is a file.  The candidates are
  in normal form, so what is found is listed among the files of the tree under just
  that path (`mem_files_of_resolveImport?`).

  What a specifier is resolved to depends on two things only:

    • the candidates, into which the importing file enters with its directory alone
      (`resolveImport?_congr_parent`),
    • which of them are files, up to the first one (`resolveImport?_stable`).

  Whatever else happens to a tree, to other files or to the contents of these, the import
  keeps its meaning.
-/
import Mathlib.Data.List.Find
import LivePreview.Proofs.Path.Specifier
import LivePreview.Proofs.Tree.Lookup
import LivePreview.Proofs.Tree.Reachable
import LivePreview.Tree.Query

namespace LivePreview.Tree

open LivePreview.Path (IsNormal)
open LivePreview.Path.Specifier (candidates isLocal target?)

variable {tree after : Tree} {importer other specifier target path : Text}

/-! ## §1. Files -/

theorem isFileAt_iff : tree.isFileAt path = true ↔ ∃ content, tree.get? path = some (.file content) := by
  unfold isFileAt
  rw [Option.any_eq_true]
  constructor
  · rintro ⟨node, hnode, hfile⟩
    cases node with
    | file content => exact ⟨content, hnode⟩
    | directory children => cases hfile
  · rintro ⟨content, hnode⟩
    exact ⟨_, hnode, rfl⟩

/-- The files are listed with their contents. -/
theorem mem_files {content : Json} :
    (path, content) ∈ tree.files ↔ tree.get? path = some (.file content) := by
  unfold files
  rw [List.mem_filterMap]
  constructor
  · rintro ⟨⟨q, node⟩, hnode, heq⟩
    obtain ⟨found, hcontent, hpair⟩ := Option.map_eq_some_iff.mp heq
    obtain ⟨rfl, rfl⟩ := Prod.mk.inj hpair
    cases node with
    | file own =>
      obtain rfl := Option.some.inj hcontent
      exact mem_toList_iff.mp hnode
    | directory children => cases hcontent
  · intro hnode
    exact ⟨_, mem_toList_iff.mpr hnode, rfl⟩

/-- The files are listed by their paths. -/
theorem mem_files_iff : path ∈ tree.files.map Prod.fst ↔ tree.isFileAt path = true := by
  rw [isFileAt_iff, List.mem_map]
  constructor
  · rintro ⟨⟨_, content⟩, hfile, rfl⟩
    exact ⟨content, mem_files.mp hfile⟩
  · rintro ⟨content, hnode⟩
    exact ⟨_, mem_files.mpr hnode, rfl⟩

/-- No file is listed twice. -/
theorem nodup_files (tree : Tree) : (tree.files.map Prod.fst).Nodup := by
  have hpaths : (tree.toList.map Prod.fst).Nodup := by
    unfold toList
    rw [Std.ExtTreeMap.map_fst_toList_eq_keys]
    exact Std.ExtTreeMap.nodup_keys
  have hsublist : (tree.files.map Prod.fst).Sublist (tree.toList.map Prod.fst) := by
    unfold files
    generalize tree.toList = nodes
    induction nodes with
    | nil => exact .slnil
    | cons entry nodes ih =>
      obtain ⟨path, node⟩ := entry
      rw [List.filterMap_cons]
      dsimp only
      cases node.content? with
      | none => exact ih.cons path
      | some content => exact ih.cons_cons path
  exact hpaths.sublist hsublist

theorem isFile_of_isNormal (h : IsNormal path) : tree.isFile path = tree.isFileAt path := by
  unfold isFile
  rw [show Path.normalize path = path from h]

/-! ## §2. What is found -/

/-- What a specifier is resolved to is a candidate in normal form, and a file. -/
theorem isNormal_of_resolveImport? (h : tree.resolveImport? importer specifier = some path) :
    IsNormal path ∧ tree.isFile path = true := by
  unfold resolveImport? at h
  obtain ⟨target, htarget, hfound⟩ := Option.bind_eq_some_iff.mp h
  have hnormal := Path.Specifier.isNormal_target? htarget
  exact ⟨Path.Specifier.isNormal_of_mem_candidates hnormal (List.mem_of_find?_eq_some hfound),
    List.find?_some hfound⟩

/-- **What a specifier is resolved to is listed among the files.** -/
theorem mem_files_of_resolveImport? (h : tree.resolveImport? importer specifier = some path) :
    path ∈ tree.files.map Prod.fst := by
  obtain ⟨hnormal, hfile⟩ := isNormal_of_resolveImport? h
  rw [isFile_of_isNormal hnormal] at hfile
  exact mem_files_iff.mpr hfile

/-- Only local specifiers are resolved. -/
theorem resolveImport?_of_isLocal_eq_false (importer : Text)
    (h : Path.Specifier.isLocal specifier = false) : tree.resolveImport? importer specifier = none := by
  unfold resolveImport?
  rw [Path.Specifier.target?_of_isLocal_eq_false importer h]
  rfl

/-! ## §3. The first file -/

theorem resolveImport?_of_target? (htarget : target? importer specifier = some target) :
    tree.resolveImport? importer specifier = (candidates target).find? tree.isFile := by
  unfold resolveImport?
  rw [htarget]
  rfl

/-- A specifier is resolved to a path exactly if that is the first file among the candidates. -/
theorem resolveImport?_eq_some_iff (htarget : target? importer specifier = some target) :
    tree.resolveImport? importer specifier = some path
      ↔ ∃ front back, candidates target = front ++ path :: back ∧ tree.isFile path = true
        ∧ ∀ q ∈ front, tree.isFile q = false := by
  rw [resolveImport?_of_target? htarget, List.find?_eq_some_iff_append]
  simp only [Bool.not_eq_true']
  constructor
  · rintro ⟨hfile, front, back, hsplit, hfront⟩
    exact ⟨front, back, hsplit, hfile, hfront⟩
  · rintro ⟨front, back, hsplit, hfile, hfront⟩
    exact ⟨hfile, front, back, hsplit, hfront⟩

/-- A specifier is resolved to nothing exactly if no candidate is a file. -/
theorem resolveImport?_eq_none_iff (htarget : target? importer specifier = some target) :
    tree.resolveImport? importer specifier = none
      ↔ ∀ q ∈ candidates target, tree.isFile q = false := by
  rw [resolveImport?_of_target? htarget, List.find?_eq_none]
  simp only [Bool.not_eq_true]

/-- What a specifier is resolved to is in normal form, and a file with a text stands there. -/
theorem HoldsTexts.exists_text_of_resolveImport? (h : tree.HoldsTexts)
    (hresolve : tree.resolveImport? importer specifier = some path) :
    IsNormal path ∧ ∃ content : Text, tree.get? path = some (.file (.text content)) := by
  obtain ⟨hnormal, hfile⟩ := isNormal_of_resolveImport? hresolve
  rw [isFile_of_isNormal hnormal] at hfile
  obtain ⟨content, hnode⟩ := isFileAt_iff.mp hfile
  obtain ⟨text, rfl⟩ := h path _ hnode content rfl
  exact ⟨hnormal, text, hnode⟩

/-! ## §4. What an import depends on -/

/-- An import means the same in all files of a directory. -/
theorem resolveImport?_congr_parent
    (h : Path.parent (Path.normalize other) = Path.parent (Path.normalize importer)) :
    tree.resolveImport? other specifier = tree.resolveImport? importer specifier := by
  unfold resolveImport?
  rw [Path.Specifier.target?_congr_parent h specifier]

/-- Behind the first file nothing counts: a tree with the same files among the candidates up to there
resolves the import in the same way. -/
theorem resolveImport?_stable (htarget : target? importer specifier = some target)
    {front back : List Text} (hsplit : candidates target = front ++ path :: back)
    (hresolve : tree.resolveImport? importer specifier = some path)
    (hagree : ∀ q ∈ front ++ [path], after.isFile q = tree.isFile q) :
    after.resolveImport? importer specifier = some path := by
  have hfile : tree.isFile path = true := (isNormal_of_resolveImport? hresolve).2
  rw [resolveImport?_of_target? htarget, hsplit, ← List.singleton_append, ← List.append_assoc,
    List.find?_append] at hresolve ⊢
  -- the search of the first part succeeds, in both trees alike, so that the rest is not looked at
  have hfound : ((front ++ [path]).find? tree.isFile).isSome = true :=
    List.find?_isSome.mpr ⟨path, List.mem_append_right front List.mem_cons_self, hfile⟩
  have hsame : (front ++ [path]).find? after.isFile = (front ++ [path]).find? tree.isFile :=
    List.find?_congr hagree
  rw [Option.or_of_isSome hfound] at hresolve
  rw [hsame, Option.or_of_isSome hfound, hresolve]

/-- Where no candidate has been a file and none has become one, there is still nothing that the import
means. -/
theorem resolveImport?_stable_none (htarget : target? importer specifier = some target)
    (hresolve : tree.resolveImport? importer specifier = none)
    (hagree : ∀ q ∈ candidates target, after.isFile q = tree.isFile q) :
    after.resolveImport? importer specifier = none := by
  rw [resolveImport?_of_target? htarget] at hresolve ⊢
  rw [List.find?_congr hagree, hresolve]

/-! ## §5. Behind every run -/

/-- Behind every run, an import means the first file among the candidates for its target, which every
local specifier has, and no other; it means nothing if no candidate is a file.  What it means is in normal
form, and a file stands there.  Of the importing file only the directory counts, and of the tree only
which candidates are files, up to the one that is found. -/
theorem resolveImport?_of_run {start : Tree} (hstart : start.IsInitial) (edits : List Edit)
    (importer specifier : Text) :
    let tree := start.run edits
    (isLocal specifier = false → tree.resolveImport? importer specifier = none) ∧
    (isLocal specifier = true → ∃ target, target? importer specifier = some target ∧
      (∀ path, tree.resolveImport? importer specifier = some path ↔
        ∃ front back, candidates target = front ++ path :: back ∧ tree.isFile path = true ∧
          ∀ q ∈ front, tree.isFile q = false) ∧
      (tree.resolveImport? importer specifier = none ↔
        ∀ q ∈ candidates target, tree.isFile q = false) ∧
      (∀ (path : Text) (front back : List Text) (after : Tree), candidates target = front ++ path :: back →
        tree.resolveImport? importer specifier = some path →
        (∀ q ∈ front ++ [path], after.isFile q = tree.isFile q) →
        after.resolveImport? importer specifier = some path) ∧
      ∀ after : Tree, tree.resolveImport? importer specifier = none →
        (∀ q ∈ candidates target, after.isFile q = tree.isFile q) →
        after.resolveImport? importer specifier = none) ∧
    (∀ path, tree.resolveImport? importer specifier = some path →
      IsNormal path ∧ ∃ content : Text, tree.get? path = some (.file (.text content))) ∧
    ∀ other, Path.parent (Path.normalize other) = Path.parent (Path.normalize importer) →
      tree.resolveImport? other specifier = tree.resolveImport? importer specifier := by
  intro tree
  have htexts : tree.HoldsTexts := hstart.holdsTexts.run edits
  refine ⟨resolveImport?_of_isLocal_eq_false importer, fun hlocal => ?_,
    fun path hresolve => htexts.exists_text_of_resolveImport? hresolve,
    fun other hparent => resolveImport?_congr_parent hparent⟩
  obtain ⟨target, htarget⟩ := Path.Specifier.exists_target?_of_isLocal importer hlocal
  refine ⟨target, htarget, fun path => resolveImport?_eq_some_iff htarget,
    resolveImport?_eq_none_iff htarget, ?_, ?_⟩
  · intro path front back after hsplit hresolve hagree
    exact resolveImport?_stable htarget hsplit hresolve hagree
  · intro after hresolve hagree
    exact resolveImport?_stable_none htarget hresolve hagree

/-- A script, and beside it two files that go by the name of a component. -/
def componentEdits : List Edit :=
  [.createFile "/src/main.ts" "", .createFile "/src/button.jsx" "", .createFile "/src/button/index.ts" ""]

/-- The import of the component means the first of the two files.  It does so still when this file has
another text, the other one is gone and a third one has come that is asked for later; from the root of the
workspace it means nothing. -/
theorem resolveImport?_of_run_component :
    (Tree.empty.run componentEdits).resolveImport? "/src/main.ts" "./button" = some ("/src/button.jsx" : Text) ∧
    ((Tree.empty.run componentEdits).run [.writeFile "/src/button.jsx" "x", .delete "/src/button/index.ts",
      .createFile "/src/button.css" "y"]).resolveImport? "/src/main.ts" "./button"
        = some ("/src/button.jsx" : Text) ∧
    (Tree.empty.run componentEdits).resolveImport? "/src/other.ts" "@/button" = none := by
  have hrun := resolveImport?_of_run (.inl rfl : Tree.empty.IsInitial) componentEdits
  obtain ⟨target, htarget, hsome, -, hstable, -⟩ := (hrun "/src/main.ts" "./button").2.1 (by decide)
  have hvalue : target? "/src/main.ts" "./button" = some ("/src/button" : Text) := by decide
  obtain rfl : ("/src/button" : Text) = target := Option.some.inj (hvalue.symm.trans htarget)
  have hfirst : (Tree.empty.run componentEdits).resolveImport? "/src/main.ts" "./button"
      = some ("/src/button.jsx" : Text) := by
    exact (hsome _).mpr ⟨["/src/button", "/src/button.tsx"], _, rfl, by decide, by decide⟩
  refine ⟨hfirst, hstable _ ["/src/button", "/src/button.tsx"] _ _ rfl hfirst (by decide), ?_⟩
  obtain ⟨root, hroot, -, hnone, -⟩ := (hrun "/src/other.ts" "@/button").2.1 (by decide)
  have hvalue : target? "/src/other.ts" "@/button" = some ("/button" : Text) := by decide
  obtain rfl : ("/button" : Text) = root := Option.some.inj (hvalue.symm.trans hroot)
  exact hnone.mpr (by decide)

end LivePreview.Tree
