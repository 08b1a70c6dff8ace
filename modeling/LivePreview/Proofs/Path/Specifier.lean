/-
  LivePreview.Proofs.Path.Specifier
  ─────────────────────────────────
  **What a specifier points at is a path in normal form.**

  The target of a local specifier is in normal form, and an extension behind it only
  changes its last name; so are the candidates (`isNormal_of_mem_candidates`).  The local
  specifiers, and no others, have a target.
-/
import LivePreview.Path.Specifier
import LivePreview.Proofs.Path.Ancestry

namespace LivePreview.Path.Specifier

/-! ## §1. Targets -/

theorem isNormal_target? {importer specifier target : Text}
    (h : target? importer specifier = some target) : IsNormal target := by
  unfold target? at h
  split at h
  · cases h
    exact isNormal_normalize _
  · split at h
    · cases h
      exact isNormal_normalize _
    · split at h
      · cases h
        exact isNormal_normalize _
      · cases h

/-- Only local specifiers have a target. -/
theorem target?_of_isLocal_eq_false (importer : Text) {specifier : Text}
    (h : isLocal specifier = false) : target? importer specifier = none := by
  unfold isLocal at h
  rw [Bool.or_eq_false_iff, Bool.or_eq_false_iff] at h
  obtain ⟨⟨hrelative, habsolute⟩, haliased⟩ := h
  unfold target?
  rw [hrelative, haliased, habsolute]
  simp

/-- Every local specifier has a target. -/
theorem exists_target?_of_isLocal (importer : Text) {specifier : Text} (h : isLocal specifier = true) :
    ∃ target, target? importer specifier = some target := by
  unfold isLocal at h
  unfold target?
  by_cases hrelative : isRelative specifier = true
  · exact ⟨_, if_pos hrelative⟩
  rw [if_neg hrelative]
  by_cases haliased : isAliased specifier = true
  · exact ⟨_, if_pos haliased⟩
  rw [if_neg haliased]
  have habsolute : isAbsolute specifier = true := by simpa [hrelative, haliased] using h
  exact ⟨_, if_pos habsolute⟩

/-- The importing file counts only for the directory that it stands in. -/
theorem target?_congr_parent {importer other : Text}
    (h : parent (normalize other) = parent (normalize importer)) (specifier : Text) :
    target? other specifier = target? importer specifier := by
  unfold target?
  rw [h]

/-! ## §2. Candidates -/

/-- A segment with an extension behind it is a name, whatever the segment is: it is longer than
the two dots. -/
theorem isName_append_extension {segment : List CodePoint}
    (hsegment : ∀ point ∈ segment, isSeparator point = false) {extension : Text}
    (hextension : extension ∈ importExtensions) : IsName (segment ++ extension.points) := by
  have hall : ∀ extension ∈ importExtensions,
      2 < extension.points.length ∧ ∀ point ∈ extension.points, isSeparator point = false := by decide
  obtain ⟨hlong, hpoints⟩ := hall extension hextension
  have hlength : (segment ++ extension.points).length = segment.length + extension.points.length :=
    List.length_append
  refine ⟨fun heq => ?_, fun heq => ?_, fun heq => ?_, fun point hpoint => ?_⟩
  · rw [heq] at hlength
    simp only [List.length_nil] at hlength
    omega
  · rw [heq] at hlength
    simp only [List.length_cons, List.length_nil] at hlength
    omega
  · rw [heq] at hlength
    simp only [List.length_cons, List.length_nil] at hlength
    omega
  · exact (List.mem_append.mp hpoint).elim (hsegment point) (hpoints point)

/-- The trail of names with a last one is a path in normal form. -/
theorem isNormal_trail_concat {segs : List (List CodePoint)} {name : List CodePoint}
    (hsegs : AreNames segs) (hname : IsName name) : IsNormal ⟨trail (segs ++ [name])⟩ := by
  have hall : AreNames (segs ++ [name]) :=
    areNames_append.mpr ⟨hsegs, fun segment hmem => List.mem_singleton.mp hmem ▸ hname⟩
  rw [← ofSegments_eq_trail (by simp)]
  exact isNormal_ofNames hall

/-- A target with an extension. -/
theorem isNormal_append_extension {target : Text} (h : IsNormal target) {extension : Text}
    (hextension : extension ∈ importExtensions) : IsNormal (target ++ extension) := by
  show IsNormal ⟨target.points ++ extension.points⟩
  by_cases hroot : target = root
  · -- behind the root the extension is a name of its own
    have hname := @isName_append_extension [] (by simp) extension hextension
    have hnormal := @isNormal_trail_concat [] _ (by simp [AreNames]) hname
    rw [hroot]
    show IsNormal ⟨slash :: extension.points⟩
    simpa using hnormal
  · -- otherwise it becomes the end of the last name
    have hne : names target ≠ [] := fun hnil => hroot (h.names_eq_nil_iff.mp hnil)
    obtain ⟨front, name, hconcat⟩ := (List.eq_nil_or_concat' (names target)).resolve_left hne
    have hnames := areNames_names target
    rw [h.points_eq_trail hroot]
    rw [hconcat] at hnames ⊢
    obtain ⟨hfront, hlast⟩ := areNames_append.mp hnames
    have hname : IsName name := hlast name List.mem_cons_self
    have hnormal := isNormal_trail_concat hfront (isName_append_extension hname.2.2.2 hextension)
    simpa using hnormal

/-- The index file with an extension beneath a target. -/
theorem isNormal_append_index {target : Text} (h : IsNormal target) {extension : Text}
    (hextension : extension ∈ importExtensions) :
    IsNormal ((if target = root then ("" : Text) else target) ++ "/index" ++ extension) := by
  have hindex := @isName_append_extension ("index" : Text).points (by decide) extension hextension
  have hnormal := isNormal_trail_concat (areNames_names target) hindex
  -- the root gives up its slash, so that `/index` comes behind a trail in both cases
  have hdirectory : (if target = root then ("" : Text) else target).points = trail (names target) := by
    by_cases hroot : target = root
    · rw [if_pos hroot, hroot, names_root]
      rfl
    · rw [if_neg hroot]
      exact h.points_eq_trail hroot
  rw [trail_append, ← hdirectory] at hnormal
  have hpoints : (((if target = root then ("" : Text) else target) ++ "/index") ++ extension)
      = ⟨(if target = root then ("" : Text) else target).points
          ++ trail [("index" : Text).points ++ extension.points]⟩ := by
    show Text.mk ((_ ++ ("/index" : Text).points) ++ extension.points) = _
    rw [List.append_assoc, trail_cons, trail_nil, List.append_nil]
    rfl
  rw [hpoints]
  exact hnormal

/-- **The candidates for a target in normal form are in normal form.** -/
theorem isNormal_of_mem_candidates {target candidate : Text} (h : IsNormal target)
    (hmem : candidate ∈ candidates target) : IsNormal candidate := by
  unfold candidates at hmem
  rcases List.mem_append.mp hmem with hmem | hmem
  · rcases List.mem_cons.mp hmem with rfl | hmem
    · exact h
    · obtain ⟨extension, hextension, rfl⟩ := List.mem_map.mp hmem
      exact isNormal_append_extension h hextension
  · obtain ⟨extension, hextension, rfl⟩ := List.mem_map.mp hmem
    exact isNormal_append_index h hextension

end LivePreview.Path.Specifier
