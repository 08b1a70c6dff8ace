/-
  LivePreview.Proofs.Cli.Exclusion
  ────────────────────────────────
  **What is left out on a disk, and what of it a loaded tree can show.**

  A file is left out if a name on the way to it is hidden or skipped.  That is asked of the
  names on the disk, before they become the names of a tree; and a backslash, which is part
  of a name there, separates names here:

      p/a\.git   on the disk    one name, which begins with no dot
      /a/.git    in the tree    two names, the second one hidden

  So the names of a loaded tree are the pieces between the backslashes, settled
  (`exists_mem_names_iff`).  A hidden or skipped name among them is a piece of a name with a
  backslash (`exists_backslash_of_isExcluded`).
-/
import LivePreview.Proofs.Cli.Loading
import LivePreview.Proofs.Path.Ancestry

namespace LivePreview.Cli

open LivePreview.Path (backslash dot names segments settle slash trail)

/-! ## §1. Names to be left out -/

/-- The name in a tree is hidden, or one of those that are never loaded. -/
def IsExcluded (name : List CodePoint) : Prop :=
  name.head? = some dot ∨ ∃ skipped ∈ skippedNames, name = (skipped : Text).points

instance (name : List CodePoint) : Decidable (IsExcluded name) :=
  inferInstanceAs (Decidable (_ ∨ _))

/-- A name is left out on the disk exactly if it is one that a tree is not to have. -/
theorem isExcluded_points_iff {name : String} : IsExcluded (name : Text).points ↔ isSkipped name = true := by
  have hhead : (name : Text).points.head? = some dot ↔ name.toList.head? = some '.' := by
    show (name.toList.map CodePoint.char).head? = some (CodePoint.char '.') ↔ _
    cases name.toList <;> simp
  have hlisted : (∃ skipped ∈ skippedNames, (name : Text).points = (skipped : Text).points)
      ↔ skippedNames.contains name = true := by
    rw [List.contains_iff_mem]
    constructor
    · rintro ⟨skipped, hmem, heq⟩
      rwa [Text.points_ofString_injective heq]
    · intro hmem
      exact ⟨name, hmem, rfl⟩
  unfold IsExcluded isSkipped
  rw [hhead, hlisted, Bool.or_eq_true, beq_iff_eq]

/-! ## §2. The names of a loaded file -/

/-- What stands between the slashes and backslashes of a path on the disk. -/
def pieces (file : Segments) : List (List CodePoint) :=
  (namesFor file).flatMap (·.splitOn backslash)

theorem mem_pieces_iff {file : Segments} {piece : List CodePoint} :
    piece ∈ pieces file ↔ ∃ name ∈ file, piece ∈ (name : Text).points.splitOn backslash := by
  unfold pieces namesFor
  rw [List.flatMap_map, List.mem_flatMap]

/-- Where there is no slash, backslashes alone separate segments. -/
theorem segments_of_not_mem_slash {points : List CodePoint} (h : slash ∉ points) :
    segments points = points.splitOn backslash := by
  unfold segments
  rw [List.splitOn_eq_splitOnP]
  induction points with
  | nil => rfl
  | cons point points ih =>
    have hpoint : Path.isSeparator point = (point == backslash) := by
      have hne : point ≠ slash := fun heq => h (heq ▸ List.mem_cons_self)
      unfold Path.isSeparator
      rw [beq_eq_false_iff_ne.mpr hne, Bool.false_or]
      rfl
    rw [List.splitOnP_cons_eq_if_modifyHead, List.splitOnP_cons_eq_if_modifyHead, hpoint,
      ih fun hmem => h (List.mem_cons_of_mem point hmem)]

/-- A text that goes on with slashes, each in front of a further text, has the segments of all of them. -/
theorem segments_append_trail (segment : List CodePoint) (segs : List (List CodePoint)) :
    segments (segment ++ trail segs) = segments segment ++ segs.flatMap segments := by
  induction segs generalizing segment with
  | nil => rw [Path.trail_nil, List.append_nil, List.flatMap_nil, List.append_nil]
  | cons next segs ih =>
    rw [Path.trail_cons, List.cons_append, Path.segments_append_slash, ih next, List.flatMap_cons]

variable {disk : Disk} {directory : Segments} {file : Segments × String}

/-- **The names of a loaded file are its pieces, settled.** -/
theorem Disk.WellFormed.names_pathFor (h : disk.WellFormed) (hmem : file ∈ disk.textsIn directory) :
    names (pathFor file.1) = settle (pieces file.1) := by
  obtain ⟨hne, -, bytes, hplace, -⟩ := mem_textsIn_iff.mp hmem
  have hslash : ∀ segment ∈ namesFor file.1, slash ∉ segment := by
    intro segment hsegment
    obtain ⟨name, hname, rfl⟩ := List.mem_map.mp hsegment
    exact not_mem_slash_of_isDiskName (h.names_of_file _ hplace name (List.mem_append_right _ hname))
  have hpieces : (namesFor file.1).flatMap segments = pieces file.1 :=
    List.flatMap_congr fun segment hsegment => segments_of_not_mem_slash (hslash segment hsegment)
  have hpoints : (Path.ofNames (namesFor file.1)).points = [] ++ trail (namesFor file.1) :=
    Path.ofSegments_eq_trail fun hnil => hne (List.map_eq_nil_iff.mp hnil)
  unfold pathFor
  rw [slash_shownName, Path.names_normalize]
  unfold names
  rw [hpoints, segments_append_trail, hpieces]
  -- the empty segment in front of the first slash is skipped
  rfl

/-! ## §3. What a loaded tree shows -/

/-- **The names in a loaded tree are those of the loaded files.** -/
theorem Disk.WellFormed.exists_mem_names_iff (h : disk.WellFormed) {loaded : Project × List Segments}
    (hok : load disk directory = .ok loaded) (name : List CodePoint) :
    (∃ path, loaded.1.tree.has path = true ∧ name ∈ names path)
      ↔ ∃ file ∈ disk.textsIn directory, name ∈ settle (pieces file.1) := by
  have hholds := (isLoaded_of_load disk directory hok).holds
  constructor
  · rintro ⟨path, hhas, hname⟩
    rcases (hholds.has_iff path).mp hhas with rfl | ⟨entry, hentry, hpath⟩
    · rw [Path.names_root] at hname
      cases hname
    · obtain ⟨file, hfile, rfl⟩ := List.mem_map.mp hentry
      refine ⟨file, hfile, ?_⟩
      rw [← h.names_pathFor hfile]
      rcases hpath with rfl | habove
      · exact hname
      · -- a directory above a file has the first of its names
        have hprefix := ((isNormal_pathFor file.1).mem_ancestors_iff.mp habove).2.1
        exact hprefix.subset hname
  · rintro ⟨file, hfile, hname⟩
    rw [← h.names_pathFor hfile] at hname
    have hentry : (pathFor file.1, (file.2 : Text)) ∈ entriesFor (disk.textsIn directory) :=
      List.mem_map.mpr ⟨file, hfile, rfl⟩
    exact ⟨pathFor file.1, (hholds.has_iff _).mpr (.inr ⟨_, hentry, .inl rfl⟩), hname⟩

/-- A piece of a loaded file that is to be left out is a piece of a name with a backslash: a name
without one is its own piece, and has been asked for on the disk. -/
theorem exists_backslash_of_isExcluded (hmem : file ∈ disk.textsIn directory) {piece : List CodePoint}
    (hpiece : piece ∈ settle (pieces file.1)) (hexcluded : IsExcluded piece) :
    ∃ name ∈ file.1, '\\' ∈ name.toList ∧ piece ∈ (name : Text).points.splitOn backslash := by
  obtain ⟨name, hname, hsplit⟩ := mem_pieces_iff.mp (Path.settle_subset _ hpiece)
  refine ⟨name, hname, ?_, hsplit⟩
  by_contra hplain
  have hfree : ∀ point ∈ (name : Text).points, (point == backslash) = false := by
    intro point hpoint
    exact beq_eq_false_iff_ne.mpr (ne_of_mem_of_not_mem hpoint (not_mem_backslash_of_plain hplain))
  rw [List.splitOn_eq_splitOnP, List.splitOnP_eq_singleton hfree, List.mem_singleton] at hsplit
  subst hsplit
  have hkept : isSkipped name = false := (mem_textsIn_iff.mp hmem).2.1 name hname
  rw [isExcluded_points_iff.mp hexcluded] at hkept
  cases hkept

/-- **A hidden or skipped name in a loaded tree comes from a name with a backslash.** -/
theorem Disk.WellFormed.exists_backslash_of_has (h : disk.WellFormed) {loaded : Project × List Segments}
    (hok : load disk directory = .ok loaded) {path : Text} (hhas : loaded.1.tree.has path = true)
    {piece : List CodePoint} (hpiece : piece ∈ names path) (hexcluded : IsExcluded piece) :
    ∃ file ∈ disk.textsIn directory, ∃ name ∈ file.1,
      '\\' ∈ name.toList ∧ piece ∈ (name : Text).points.splitOn backslash := by
  obtain ⟨file, hfile, hsettled⟩ := (h.exists_mem_names_iff hok piece).mp ⟨path, hhas, hpiece⟩
  exact ⟨file, hfile, exists_backslash_of_isExcluded hfile hsettled hexcluded⟩

/-- What is loaded from a directory has the pieces of its files for names, settled.  A hidden or skipped
name among them is a piece of a name with a backslash; where no name on the disk holds one, the directory
can be loaded, and no path in the tree has a hidden or skipped name. -/
theorem exclusion_of_load {disk : Disk} (h : disk.WellFormed) (directory : Segments) :
    (∀ loaded, load disk directory = .ok loaded →
      (∀ name, (∃ path, loaded.1.tree.has path = true ∧ name ∈ names path) ↔
        ∃ file ∈ disk.textsIn directory, name ∈ settle (pieces file.1)) ∧
      ∀ path, loaded.1.tree.has path = true → ∀ piece ∈ names path, IsExcluded piece →
        ∃ file ∈ disk.textsIn directory, ∃ name ∈ file.1,
          '\\' ∈ name.toList ∧ piece ∈ (name : Text).points.splitOn backslash) ∧
    ((∀ file ∈ disk.textsIn directory, IsPlain file.1) →
      ∃ loaded, load disk directory = .ok loaded ∧
        ∀ path, loaded.1.tree.has path = true → ∀ name ∈ names path, ¬ IsExcluded name) := by
  constructor
  · intro loaded hok
    refine ⟨h.exists_mem_names_iff hok, ?_⟩
    intro path hhas piece hpiece hexcluded
    exact h.exists_backslash_of_has hok hhas hpiece hexcluded
  · intro hplain
    obtain ⟨loaded, hok⟩ := (exists_load_eq_ok_iff disk directory).mpr (h.compatible_of_isPlain hplain)
    refine ⟨loaded, hok, ?_⟩
    intro path hhas name hname hexcluded
    obtain ⟨file, hfile, whole, hwhole, hback, -⟩ := h.exists_backslash_of_has hok hhas hname hexcluded
    exact hplain file hfile whole hwhole hback

/-- A disk with a directory `p` of three text files, one in a hidden directory and one in a skipped one. -/
def builtDisk : Disk where
  files := [(["p", ".git", "config"], "0".toUTF8), (["p", "dist", "a.js"], "1".toUTF8),
    (["p", "src", "a.ts"], "2".toUTF8)]
  directories := []

/-- Only the third file is loaded, and no path in the tree has a hidden or skipped name. -/
theorem exclusion_of_load_builtDisk :
    builtDisk.WellFormed ∧ builtDisk.textsIn ["p"] = [(["src", "a.ts"], "2")]
      ∧ ∃ loaded, load builtDisk ["p"] = .ok loaded
        ∧ ∀ path, loaded.1.tree.has path = true → ∀ name ∈ names path, ¬ IsExcluded name := by
  have hformed : builtDisk.WellFormed := ⟨by decide, by decide, by decide, by decide⟩
  have htexts : builtDisk.textsIn ["p"] = [(["src", "a.ts"], "2")] := by decide
  have hplain : ∀ file ∈ builtDisk.textsIn ["p"], IsPlain file.1 := by
    rw [htexts]
    decide
  exact ⟨hformed, htexts, (exclusion_of_load hformed ["p"]).2 hplain⟩

/-- A disk with a directory `p` of one text file, with the name `a\.git`. -/
def hidingDisk : Disk where
  files := [(["p", "a\\.git"], "1".toUTF8)]
  directories := []

/-- The name of the file is neither hidden nor skipped, and in the tree there is a file `.git`. -/
theorem load_hidingDisk :
    hidingDisk.WellFormed ∧ hidingDisk.textsIn ["p"] = [(["a\\.git"], "1")]
      ∧ ∃ loaded, load hidingDisk ["p"] = .ok loaded ∧ loaded.1.tree.has "/a/.git" = true
        ∧ ∃ name ∈ names "/a/.git", IsExcluded name := by
  have hformed : hidingDisk.WellFormed := ⟨by decide, by decide, by decide, by decide⟩
  have htexts : hidingDisk.textsIn ["p"] = [(["a\\.git"], "1")] := by decide
  have hpath : pathFor ["a\\.git"] = "/a/.git" := by decide
  obtain ⟨loaded, hok⟩ : ∃ loaded, load hidingDisk ["p"] = .ok loaded := by
    rw [exists_load_eq_ok_iff, htexts]
    exact ⟨by decide, List.pairwise_singleton _ _⟩
  refine ⟨hformed, htexts, loaded, hok, ?_, (".git" : Text).points, by decide, by decide⟩
  have hholds := (isLoaded_of_load hidingDisk ["p"] hok).holds
  rw [htexts] at hholds
  exact (hholds.has_iff _).mpr (.inr ⟨_, List.mem_cons_self, .inl hpath.symm⟩)

end LivePreview.Cli
