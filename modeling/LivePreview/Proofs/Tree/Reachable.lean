/-
  LivePreview.Proofs.Tree.Reachable
  ─────────────────────────────────
  **Trees that runs of operations lead to.**

  An edit is one call of an operation, with any arguments.  A call that is rejected
  leaves the tree as it was, and so a run of edits is a fold (`Tree.run`).  Each edit
  keeps a tree well-formed and a tree of texts (`WellFormed.perform`,
  `HoldsTexts.perform`), and so does every run.  Hence every tree that a run leads to is
  read back from its snapshot (`ofSnapshot_exact`).
-/
import LivePreview.Proofs.Tree.Validation

namespace LivePreview.Tree

/-! ## §1. Edits -/

/-- A call of an operation that may change a tree. -/
inductive Edit where
  | createFile (path content : Text)
  | createDirectory (path : Text)
  | writeFile (path content : Text)
  | delete (path : Text)
  | rename (oldPath newPath : Text)
  | replace (snapshot : Snapshot)

/-- The tree behind a call: the new one, or the old one if the call is rejected. -/
def behind {α : Type} (tree : Tree) : Except Error (Outcome α) → Tree
  | .ok outcome => outcome.tree
  | .error _ => tree

/-- The tree behind an edit. -/
def perform (tree : Tree) : Edit → Tree
  | .createFile path content => tree.behind (tree.createFile path (.text content))
  | .createDirectory path => tree.behind (tree.createDirectory path)
  | .writeFile path content => tree.behind (tree.writeFile path (.text content))
  | .delete path => tree.behind (tree.delete path)
  | .rename oldPath newPath => tree.behind (tree.rename oldPath newPath)
  | .replace snapshot => tree.behind (tree.replace snapshot)

/-- The outcome without its answer. -/
def Outcome.quiet {α : Type} (outcome : Outcome α) : Outcome Unit :=
  ⟨(), outcome.tree, outcome.changes?⟩

/-- What an edit comes to. -/
def attempt (tree : Tree) : Edit → Except Error (Outcome Unit)
  | .createFile path content => (tree.createFile path (.text content)).map .quiet
  | .createDirectory path => (tree.createDirectory path).map .quiet
  | .writeFile path content => (tree.writeFile path (.text content)).map .quiet
  | .delete path => (tree.delete path).map .quiet
  | .rename oldPath newPath => (tree.rename oldPath newPath).map .quiet
  | .replace snapshot => tree.replace snapshot

/-- The tree behind a run of edits. -/
def run (tree : Tree) (edits : List Edit) : Tree :=
  edits.foldl perform tree

/-- Where runs start: the tree with nothing but the root, or what a snapshot describes. -/
def IsInitial (tree : Tree) : Prop :=
  tree = .empty ∨ ∃ snapshot, ofSnapshot snapshot = .ok tree

/-! ## §2. What one edit preserves -/

/-- A property is preserved by a call if it holds of the tree that the accepted call yields. -/
theorem behind_preserves {α : Type} {P : Tree → Prop} {tree : Tree}
    {result : Except Error (Outcome α)} (h : P tree)
    (hok : ∀ outcome, result = .ok outcome → P outcome.tree) : P (tree.behind result) := by
  cases result with
  | error e => exact h
  | ok outcome => exact hok outcome rfl

theorem replace_eq_ok {tree : Tree} {snapshot : Snapshot} {outcome : Outcome Unit}
    (hok : tree.replace snapshot = .ok outcome) : ofSnapshot snapshot = .ok outcome.tree := by
  obtain ⟨new, hnew, rfl⟩ := Result.map_eq_ok_iff.mp hok
  exact hnew

/-- What is put in place of a tree is what the snapshot describes. -/
theorem replace_yields_iff {old new : Tree} {snapshot : Snapshot} :
    (∃ outcome, old.replace snapshot = .ok outcome ∧ outcome.tree = new)
      ↔ ofSnapshot snapshot = .ok new := by
  constructor
  · rintro ⟨outcome, hok, rfl⟩
    exact replace_eq_ok hok
  · intro hok
    exact ⟨_, Result.map_eq_ok_iff.mpr ⟨new, hok, rfl⟩, rfl⟩

theorem perform_eq (tree : Tree) (edit : Edit) : tree.perform edit = tree.behind (tree.attempt edit) := by
  have hquiet : ∀ {α : Type} (result : Except Error (Outcome α)),
      tree.behind result = tree.behind (result.map .quiet) := by
    intro α result
    cases result <;> rfl
  cases edit with
  | replace snapshot => rfl
  | _ => exact hquiet _

theorem WellFormed.perform {tree : Tree} (h : tree.WellFormed) (edit : Edit) :
    (tree.perform edit).WellFormed := by
  cases edit with
  | createFile path content =>
    exact behind_preserves h fun _ hok => h.createFileAt (Path.isNormal_normalize path) hok
  | createDirectory path => exact behind_preserves h fun _ hok => h.createDirectory hok
  | writeFile path content => exact behind_preserves h fun _ hok => h.writeFile hok
  | delete path => exact behind_preserves h fun _ hok => h.delete hok
  | rename oldPath newPath => exact behind_preserves h fun _ hok => h.rename hok
  | replace snapshot =>
    exact behind_preserves h fun _ hok => wellFormed_ofSnapshot (replace_eq_ok hok)

theorem HoldsTexts.perform {tree : Tree} (h : tree.HoldsTexts) (edit : Edit) :
    (tree.perform edit).HoldsTexts := by
  cases edit with
  | createFile path content => exact behind_preserves h fun _ hok => h.createFileAt hok
  | createDirectory path => exact behind_preserves h fun _ hok => h.createDirectory hok
  | writeFile path content => exact behind_preserves h fun _ hok => h.writeFile hok
  | delete path =>
    refine behind_preserves h fun outcome hok => ?_
    obtain ⟨-, -, rfl⟩ := delete_eq_ok hok
    exact h.detachAll _
  | rename oldPath newPath =>
    refine behind_preserves h fun outcome hok => ?_
    obtain ⟨source, missing, -, -, rfl⟩ := rename_eq_ok hok
    exact h.renameAt _ _ source.kind missing
  | replace snapshot =>
    exact behind_preserves h fun _ hok => holdsTexts_ofSnapshot (replace_eq_ok hok)

/-! ## §3. What every run preserves -/

theorem IsInitial.wellFormed {tree : Tree} (h : tree.IsInitial) : tree.WellFormed := by
  rcases h with rfl | ⟨snapshot, hok⟩
  · exact wellFormed_empty
  · exact wellFormed_ofSnapshot hok

theorem IsInitial.holdsTexts {tree : Tree} (h : tree.IsInitial) : tree.HoldsTexts := by
  rcases h with rfl | ⟨snapshot, hok⟩
  · exact holdsTexts_empty
  · exact holdsTexts_ofSnapshot hok

theorem WellFormed.run {tree : Tree} (h : tree.WellFormed) (edits : List Edit) :
    (tree.run edits).WellFormed := by
  unfold Tree.run
  induction edits generalizing tree with
  | nil => exact h
  | cons edit edits ih => exact ih (h.perform edit)

theorem HoldsTexts.run {tree : Tree} (h : tree.HoldsTexts) (edits : List Edit) :
    (tree.run edits).HoldsTexts := by
  unfold Tree.run
  induction edits generalizing tree with
  | nil => exact h
  | cons edit edits ih => exact ih (h.perform edit)

/-- Whatever is called, with whatever arguments, the tree that a run leads to is well-formed and
each of its files holds a text. -/
theorem wellFormed_and_holdsTexts_of_run {start : Tree} (hstart : start.IsInitial)
    (edits : List Edit) : (start.run edits).WellFormed ∧ (start.run edits).HoldsTexts :=
  ⟨hstart.wellFormed.run edits, hstart.holdsTexts.run edits⟩

/-- A run from a snapshot, with a rename that makes directories and one that is rejected. -/
theorem wellFormed_and_holdsTexts_of_run_renames :
    (Tree.empty.run [.createFile "src\\a.ts" "x", .rename "/src" "lib/new/src",
      .rename "/lib" "/lib/new/src", .delete "/"]).WellFormed ∧
    (Tree.empty.run [.createFile "src\\a.ts" "x", .rename "/src" "lib/new/src",
      .rename "/lib" "/lib/new/src", .delete "/"]).HoldsTexts :=
  wellFormed_and_holdsTexts_of_run
    (.inr ⟨.ofFields Tree.empty.serialize, wellFormed_empty.ofSnapshot_serialize holdsTexts_empty⟩) _

/-! ## §4. Snapshots -/

/-- Snapshots are read exactly, for a new tree (`ofSnapshot`) and in place of an old one (`replace`):
a mapping is accepted if and only if it is valid, its order makes no difference to that or to the tree,
the tree is written as the mapping in normal form and in ascending order, and what is written of the
tree behind a run is read back as this tree. -/
theorem ofSnapshot_exact {entries other : List (Json × Json)} (hperm : other.Perm entries)
    {start : Tree} (hstart : start.IsInitial) (edits : List Edit) :
    ((∃ tree, ofSnapshot (.mapping entries) = .ok tree) ↔ Valid entries) ∧
    (∀ old new : Tree, (∃ outcome, old.replace (.mapping entries) = .ok outcome ∧ outcome.tree = new)
      ↔ ofSnapshot (.mapping entries) = .ok new) ∧
    (∀ tree, ofSnapshot (.mapping other) = .ok tree ↔ ofSnapshot (.mapping entries) = .ok tree) ∧
    (∀ tree, ofSnapshot (.mapping entries) = .ok tree →
      tree.serialize.Perm (canonicalEntries entries) ∧
        tree.serialize.Pairwise fun a b => compare a.1 b.1 = .lt) ∧
    ofSnapshot (.ofFields (start.run edits).serialize) = .ok (start.run edits) := by
  have hformed : (start.run edits).WellFormed := hstart.wellFormed.run edits
  have htexts : (start.run edits).HoldsTexts := hstart.holdsTexts.run edits
  refine ⟨exists_ofSnapshot_eq_ok_iff, fun old new => replace_yields_iff, ofSnapshot_congr_perm hperm,
    fun tree hok => ⟨perm_serialize hok, sorted_serialize tree⟩, hformed.ofSnapshot_serialize htexts⟩

/-- The members of a snapshot in an unusual order, with other spellings of the paths and a file without
content. -/
def shuffledEntries : List (Json × Json) :=
  [(.text "\\src\\./a.ts", .object [("kind", .text "file"), ("content", .null)]),
    (.text "/", .object [("kind", .text "directory")]),
    (.text "src/", .object [("content", .null), ("kind", .text "directory")])]

theorem ofSnapshot_exact_shuffled :
    ∃ tree, ofSnapshot (.mapping shuffledEntries.reverse) = .ok tree ∧
      ofSnapshot (.mapping shuffledEntries) = .ok tree ∧
        tree.serialize = ([("/", .object [("kind", .text "directory")]),
          ("/src", .object [("kind", .text "directory")]),
          ("/src/a.ts", .object [("kind", .text "file"), ("content", .text "")])] : Json.Fields) := by
  have hexact := ofSnapshot_exact shuffledEntries.reverse_perm (.inl rfl : Tree.empty.IsInitial) []
  exact ⟨_, rfl, (hexact.2.2.1 _).mp rfl, rfl⟩

end LivePreview.Tree
