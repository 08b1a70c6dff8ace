/-
  LivePreview.Proofs.Tree.Telling
  ───────────────────────────────
  **What is told of a tree can be written down.**

  The normal form of a path, its last segment, and the directories above it hold no code
  points that are not in the path, the slash apart; and a path that is moved holds none
  but its own and those of its new directory.  So they can be expressed in bytes if the
  paths can.

  The paths of a tree can be expressed in bytes if those of the snapshot can that it
  comes from, and those of all edits that have made it what it is
  (`IsTellable.perform`).  A tree that has been read from such a snapshot is written as
  one: a value that can be expressed in bytes and is not deep (`isEncodable_serialize`,
  `HoldsTexts.depth_serialize_le`).
-/
import LivePreview.Proofs.Json.Encodable
import LivePreview.Proofs.Path.Ancestry
import LivePreview.Proofs.Tree.Reachable

namespace LivePreview

namespace Path

variable {point : CodePoint} {path directory : Text}

/-! ## §1. Normal forms -/

theorem not_mem_of_mem_segments {points segment : List CodePoint} (hpoint : point ∉ points)
    (hseg : segment ∈ segments points) : point ∉ segment :=
  fun hmem => hpoint (Text.forall_of_mem_splitOnP hseg point hmem).2

/-- The normal form holds nothing new but slashes. -/
theorem not_mem_points_normalize (hpoint : point ∉ path.points) (hslash : point ≠ slash) :
    point ∉ (normalize path).points := by
  rw [normalize_eq]
  show point ∉ slash :: [slash].intercalate (settle (segments path.points))
  rw [List.mem_cons, not_or]
  refine ⟨hslash, Text.not_mem_intercalate (mt List.mem_singleton.mp hslash) fun segment hseg => ?_⟩
  exact not_mem_of_mem_segments hpoint (settle_subset _ hseg)

theorem isEncodable_normalize (h : path.isEncodable = true) : (normalize path).isEncodable = true := by
  rw [Text.isEncodable_iff] at h ⊢
  exact fun offset => not_mem_points_normalize (h offset) nofun

/-! ## §2. Parts and moves -/

/-- A directory that a path is within holds nothing but what is in the path. -/
theorem isEncodable_of_isWithin (h : path.isEncodable = true) (hwithin : isWithin path directory = true) :
    directory.isEncodable = true := by
  unfold isWithin at hwithin
  rw [Bool.or_eq_true, Bool.or_eq_true, beq_iff_eq, beq_iff_eq, List.isPrefixOf_iff_prefix] at hwithin
  rcases hwithin with (rfl | rfl) | hbegins
  · rfl
  · exact h
  · exact Text.isEncodable_of_subset h fun _ hmem => hbegins.subset (List.mem_append_left _ hmem)

theorem isEncodable_of_mem_ancestors (hnormal : IsNormal path) (h : path.isEncodable = true)
    (hmem : directory ∈ ancestors path) : directory.isEncodable = true :=
  isEncodable_of_isWithin h (hnormal.isWithin_of_mem_ancestors hmem)

theorem isEncodable_baseName (h : path.isEncodable = true) : (baseName path).isEncodable = true :=
  Text.isEncodable_of_subset h fun _ hmem => List.mem_reverse.mp
    ((List.takeWhile_prefix _).subset (List.mem_reverse.mp hmem))

theorem isEncodable_rebase {new : Text} (h : path.isEncodable = true) (hnew : new.isEncodable = true)
    (old : Text) : (rebase path old new).isEncodable = true := by
  unfold rebase
  split
  · exact hnew
  · have hfront : (⟨Text.dropEndWhile (· == slash) new.points⟩ : Text).isEncodable = true :=
      Text.isEncodable_of_subset hnew fun _ hmem => List.mem_reverse.mp
        ((List.dropWhile_suffix _).subset (List.mem_reverse.mp hmem))
    have hback : (⟨path.points.drop old.length⟩ : Text).isEncodable = true :=
      Text.isEncodable_of_subset h (List.drop_subset _ _)
    exact Text.isEncodable_append hfront hback

end Path

namespace Tree

open LivePreview.Path (IsNormal ancestors isNormal_normalize isEncodable_normalize)

/-! ## §3. Paths -/

/-- The tree is well-formed, and all its paths can be expressed in bytes. -/
structure IsTellable (tree : Tree) : Prop where
  wellFormed : tree.WellFormed
  isEncodable : ∀ path, tree.has path = true → path.isEncodable = true

/-- The keys and the values of the snapshot can be expressed in bytes. -/
def Snapshot.IsTellable : Snapshot → Prop
  | .notAMapping => True
  | .mapping entries => ∀ entry ∈ entries, entry.1.isEncodable = true ∧ entry.2.isEncodable = true

/-- The paths that the edit names can be expressed in bytes, and so can its snapshot. -/
def Edit.IsTellable : Edit → Prop
  | .createFile path _ | .createDirectory path | .writeFile path _ | .delete path =>
    path.isEncodable = true
  | .rename oldPath newPath => oldPath.isEncodable = true ∧ newPath.isEncodable = true
  | .replace snapshot => snapshot.IsTellable

theorem isTellable_empty : Tree.empty.IsTellable := by
  refine ⟨wellFormed_empty, fun path hhas => ?_⟩
  rw [has, get?_empty] at hhas
  split at hhas
  · next hroot =>
    rw [hroot]
    rfl
  · cases hhas

theorem has_of_has_attachAll {tree : Tree} {nodes : List (Text × Node)} {q : Text}
    (h : (tree.attachAll nodes).has q = true) : q ∈ nodes.map Prod.fst ∨ tree.has q = true := by
  by_cases hmem : q ∈ nodes.map Prod.fst
  · exact .inl hmem
  · rw [← isSome_bare, bare_attachAll_of_not_mem hmem, isSome_bare] at h
    exact .inr h

variable {tree : Tree} {path : Text}

/-! ## §4. What an edit preserves -/

theorem IsTellable.createFileAt (h : tree.IsTellable) (hnormal : IsNormal path)
    (hpath : path.isEncodable = true) {content : Json} {outcome : Outcome Text}
    (hok : tree.createFileAt path content = .ok outcome) : outcome.tree.IsTellable := by
  refine ⟨h.wellFormed.createFileAt hnormal hok, fun q hhas => ?_⟩
  obtain ⟨-, missing, hmissing, rfl⟩ := createFileAt_eq_ok hok
  rw [has_attach, has_attachDirectories_missing hmissing, Bool.or_eq_true, Bool.or_eq_true,
    decide_eq_true_eq, decide_eq_true_eq] at hhas
  rcases hhas with rfl | hmem | hhas
  · exact hpath
  · exact Path.isEncodable_of_mem_ancestors hnormal hpath hmem
  · exact h.isEncodable q hhas

theorem IsTellable.createDirectory (h : tree.IsTellable) (hpath : path.isEncodable = true)
    {outcome : Outcome Text} (hok : tree.createDirectory path = .ok outcome) :
    outcome.tree.IsTellable := by
  refine ⟨h.wellFormed.createDirectory hok, fun q hhas => ?_⟩
  rcases createDirectory_eq_ok hok with ⟨children, -, rfl⟩ | ⟨-, missing, hmissing, rfl⟩
  · exact h.isEncodable q hhas
  · have hnew := isEncodable_normalize hpath
    dsimp only at hhas
    rw [attachDirectories_concat, has_attach, has_attachDirectories_missing hmissing, Bool.or_eq_true,
      Bool.or_eq_true, decide_eq_true_eq, decide_eq_true_eq] at hhas
    rcases hhas with rfl | hmem | hhas
    · exact hnew
    · exact Path.isEncodable_of_mem_ancestors (isNormal_normalize path) hnew hmem
    · exact h.isEncodable q hhas

theorem IsTellable.writeFile (h : tree.IsTellable) (hpath : path.isEncodable = true) {content : Json}
    {outcome : Outcome Text} (hok : tree.writeFile path content = .ok outcome) :
    outcome.tree.IsTellable := by
  rcases writeFile_eq_ok hok with hcreate | ⟨current, hget, ⟨-, rfl⟩ | ⟨-, rfl⟩⟩
  · exact h.createFileAt (isNormal_normalize _) (isEncodable_normalize (isEncodable_normalize hpath)) hcreate
  · exact h
  · refine ⟨h.wellFormed.writeFile hok, fun q hhas => ?_⟩
    rw [← isSome_bare, bare_insert] at hhas
    split at hhas
    · next heq =>
      rw [heq]
      exact isEncodable_normalize hpath
    · rw [isSome_bare] at hhas
      exact h.isEncodable q hhas

theorem IsTellable.delete (h : tree.IsTellable) {outcome : Outcome (List Text)}
    (hok : tree.delete path = .ok outcome) : outcome.tree.IsTellable := by
  refine ⟨h.wellFormed.delete hok, fun q hhas => ?_⟩
  obtain ⟨-, -, rfl⟩ := delete_eq_ok hok
  have hhas : (tree.detachAll _).has q = true := hhas
  rw [has_detachAll, Bool.and_eq_true] at hhas
  exact h.isEncodable q hhas.2

theorem IsTellable.rename (h : tree.IsTellable) {newPath : Text} (hnew : newPath.isEncodable = true)
    {outcome : Outcome Text} (hok : tree.rename path newPath = .ok outcome) :
    outcome.tree.IsTellable := by
  refine ⟨h.wellFormed.rename hok, fun q hhas => ?_⟩
  obtain ⟨source, missing, -, hmove, rfl⟩ := rename_eq_ok hok
  have hnew := isEncodable_normalize hnew
  rcases has_of_has_attachAll hhas with hmem | hhas
  · -- a node that has been moved
    obtain ⟨⟨moved, node⟩, hentry, rfl⟩ := List.mem_map.mp hmem
    obtain ⟨p, -, hp⟩ := List.mem_filterMap.mp hentry
    obtain ⟨original, hget, heq⟩ := Option.map_eq_some_iff.mp hp
    cases heq
    exact Path.isEncodable_rebase (h.isEncodable p (has_eq_true_iff.mpr ⟨original, hget⟩)) hnew _
  · rw [has_detachAll, has_attachDirectories_missing hmove.missingAncestors, Bool.and_eq_true,
      Bool.or_eq_true, decide_eq_true_eq] at hhas
    rcases hhas.2 with hmem | hhas
    · exact Path.isEncodable_of_mem_ancestors hmove.isNormal_new hnew (of_decide_eq_true hmem)
    · exact h.isEncodable q hhas

/-! ## §5. Snapshots -/

/-- The entry of a node can be expressed in bytes if the one that describes it can. -/
theorem Describes.isEncodable {entry : Json} {node : Node} (hdescribes : Describes entry node)
    (h : entry.isEncodable = true) : (entryOf node).isEncodable = true := by
  cases hdescribes with
  | text s hkind hcontent =>
    have hs : s.isEncodable = true := by
      unfold contentOf at hcontent
      cases hfield : entry.field? "content" with
      | none =>
        rw [hfield] at hcontent
        cases hcontent
      | some value =>
        rw [hfield] at hcontent
        obtain rfl : value = .text s := hcontent
        exact Json.isEncodable_of_field? h hfield
    refine Json.areEncodableFields_iff.mpr (List.forall_mem_cons.mpr ⟨⟨rfl, rfl⟩, ?_⟩)
    exact List.forall_mem_singleton.mpr ⟨rfl, hs⟩
  | blank => rfl
  | directory => rfl

/-- What a snapshot describes can be expressed in bytes if the snapshot can. -/
theorem isEncodable_of_ofSnapshot {snapshot : Snapshot} (h : snapshot.IsTellable)
    (hok : ofSnapshot snapshot = .ok tree) {node : Node} (hbare : tree.bare path = some node) :
    path.isEncodable = true ∧ (entryOf node).isEncodable = true := by
  cases snapshot with
  | notAMapping => cases hok
  | mapping entries =>
    obtain ⟨-, -, -, hnodes⟩ := ofSnapshot_eq_ok_iff.mp hok
    obtain ⟨entry, hentry, hdescribed⟩ := List.mem_filterMap.mp ((hnodes path node).mp hbare)
    obtain ⟨hkey, hvalue⟩ := h entry hentry
    obtain ⟨hpath, hnode⟩ := described?_eq_some_iff.mp hdescribed
    obtain ⟨key, htext, rfl⟩ := pathOf?_eq_some_iff.mp hpath
    rw [htext] at hkey
    exact ⟨isEncodable_normalize hkey, hnode.isEncodable hvalue⟩

theorem isTellable_ofSnapshot {snapshot : Snapshot} (h : snapshot.IsTellable)
    (hok : ofSnapshot snapshot = .ok tree) : tree.IsTellable := by
  refine ⟨wellFormed_ofSnapshot hok, fun q hhas => ?_⟩
  rw [← isSome_bare] at hhas
  obtain ⟨node, hbare⟩ := Option.isSome_iff_exists.mp hhas
  exact (isEncodable_of_ofSnapshot h hok hbare).1

theorem isEncodable_serialize {snapshot : Snapshot} (h : snapshot.IsTellable)
    (hok : ofSnapshot snapshot = .ok tree) : (Json.object tree.serialize).isEncodable = true := by
  refine Json.areEncodableFields_iff.mpr fun field hfield => ?_
  rw [serialize_eq] at hfield
  obtain ⟨⟨path, node⟩, hmem, rfl⟩ := List.mem_map.mp hfield
  exact isEncodable_of_ofSnapshot h hok (mem_bareNodes_iff.mp hmem)

theorem HoldsTexts.depth_serialize_le (h : tree.HoldsTexts) : (Json.object tree.serialize).depth ≤ 3 := by
  refine Json.depth_object_le fun field hfield => ?_
  obtain ⟨⟨path, node⟩, hmem, rfl⟩ := List.mem_map.mp hfield
  have hnode := h path node (mem_toList_iff.mp hmem)
  cases node with
  | directory children => exact Nat.le_refl 2
  | file content =>
    obtain ⟨s, rfl⟩ := hnode content rfl
    exact Nat.le_refl 2

theorem IsTellable.isEncodable_files (h : tree.IsTellable) :
    ∀ file ∈ tree.files, file.1.isEncodable = true := by
  intro file hfile
  obtain ⟨⟨path, node⟩, hmem, hfile⟩ := List.mem_filterMap.mp hfile
  obtain ⟨content, -, rfl⟩ := Option.map_eq_some_iff.mp hfile
  exact h.isEncodable path (has_eq_true_iff.mpr ⟨node, mem_toList_iff.mp hmem⟩)

/-! ## §6. Every edit -/

theorem IsTellable.perform (h : tree.IsTellable) {edit : Edit} (hedit : edit.IsTellable) :
    (tree.perform edit).IsTellable := by
  cases edit with
  | createFile path content =>
    exact behind_preserves h fun _ hok =>
      h.createFileAt (isNormal_normalize path) (isEncodable_normalize hedit) hok
  | createDirectory path => exact behind_preserves h fun _ hok => h.createDirectory hedit hok
  | writeFile path content => exact behind_preserves h fun _ hok => h.writeFile hedit hok
  | delete path => exact behind_preserves h fun _ hok => h.delete hok
  | rename oldPath newPath => exact behind_preserves h fun _ hok => h.rename hedit.2 hok
  | replace snapshot =>
    exact behind_preserves h fun _ hok => isTellable_ofSnapshot hedit (replace_eq_ok hok)

end Tree

end LivePreview
