/-
  LivePreview.Proofs.Path.Names
  ─────────────────────────────
  **A path in normal form is a list of names.**

  The segments of a path are what stands between its separators, slashes and backslashes
  alike.  Reading them from the left keeps a stack (`settle`): a segment that is empty or
  `.` is skipped, `..` takes the last segment off, if there is one, and any other segment is
  put on.  The normal form is a slash in front of the segments that are left
  (`normalize_eq`), although it is made in steps that know neither segments nor
  backslashes at once:

      \a//./b\..\c     →  /a//./b/../c     slashes for backslashes
                       →  /a/./b/../c      one slash for every run
                       →  /a/c             condensed

  Squeezing a text leaves its segments as they are, up to empty ones (`Squeezed`), and
  the one slash that it starts with keeps the condensed path from starting with two
  slashes, or with `..`.

  A name is a segment that a normal form keeps: it is not empty, is neither `.` nor
  `..`, and holds no separator.  Every path has a list of names (`names`), every list
  of names has a path (`ofNames`), and on paths in normal form the two are inverse:

      names (ofNames ns) = ns            for a list `ns` of names
      ofNames (names p)  = normalize p   for every path `p`

  So a normal form is its own normal form (`isNormal_normalize`), and whatever is said
  about paths in normal form can be said about lists.  The paths that stay as they are
  consist of names alone (`isNormal_iff`), so that no two slashes stand together in them
  (`IsNormal.not_infix_slashes`).

  A normal form is the stack that the segments of a path leave, so it is up to this stack
  what paths have the same one.  Where a path goes on behind a slash, its further segments are
  read on top of the stack, whatever path has left it (`settle_append_congr`): a path
  may be put into normal form in the middle of a longer one.
-/
import LivePreview.Path.Basic
import LivePreview.Proofs.Text.Occurrence

namespace LivePreview.Path

/-! ## §1. Segments and the stack -/

/-- The code point separates segments. -/
def isSeparator (point : CodePoint) : Bool :=
  point == slash || point == .char '\\'

/-- The segments of a text, empty ones included. -/
def segments (points : List CodePoint) : List (List CodePoint) :=
  points.splitOnP isSeparator

/-- Read one segment: the segments kept so far, last first, are the stack. -/
def pushSegment (stack : List (List CodePoint)) (segment : List CodePoint) :
    List (List CodePoint) :=
  if segment = [] ∨ segment = [dot] then stack
  else if segment = [dot, dot] then stack.tail
  else segment :: stack

/-- The segments that are left when a list of segments is read from the left. -/
def settle (segs : List (List CodePoint)) : List (List CodePoint) :=
  (segs.foldl pushSegment []).reverse

/-- The absolute path of a list of segments. -/
def ofSegments (segs : List (List CodePoint)) : List CodePoint :=
  slash :: [slash].intercalate segs

/-! ## §2. Slashes for backslashes -/

/-- With slashes for backslashes the segments stand between slashes. -/
theorem splitOn_withSlashes (points : List CodePoint) :
    (withSlashes points).splitOn slash = segments points := by
  rw [List.splitOn_eq_splitOnP]
  induction points with
  | nil => rfl
  | cons point points ih =>
    have hcons : withSlashes (point :: points)
        = (if point == backslash then slash else point) :: withSlashes points := rfl
    unfold segments at ih ⊢
    rw [hcons, List.splitOnP_cons_eq_if_modifyHead, List.splitOnP_cons_eq_if_modifyHead, ih]
    by_cases hback : point = backslash
    · subst hback
      rfl
    · have hpoint : isSeparator point = (point == slash) := by
        unfold isSeparator
        rw [show (point == .char '\\') = false from beq_eq_false_iff_ne.mpr hback, Bool.or_false]
      rw [beq_eq_false_iff_ne.mpr hback, if_neg Bool.false_ne_true, hpoint]

/-! ## §3. One slash for every run -/

/-- The segments of two texts are the same up to empty ones, and so are the first ones. -/
structure Squeezed (segs others : List (List CodePoint)) : Prop where
  head : segs.head? = others.head?
  filled : segs.filter (· ≠ []) = others.filter (· ≠ [])

theorem splitOn_slash_cons (points : List CodePoint) :
    (slash :: points).splitOn slash = [] :: points.splitOn slash := by
  rw [List.splitOn_eq_splitOnP, List.splitOnP_cons_eq_if_modifyHead, if_pos (beq_self_eq_true slash),
    ← List.splitOn_eq_splitOnP]

theorem splitOn_cons_of_ne {point : CodePoint} (h : point ≠ slash) (points : List CodePoint) :
    (point :: points).splitOn slash = (points.splitOn slash).modifyHead (point :: ·) := by
  rw [List.splitOn_eq_splitOnP, List.splitOnP_cons_eq_if_modifyHead,
    if_neg (by simpa using h), ← List.splitOn_eq_splitOnP]

/-- A code point that is no slash goes to the first segment. -/
theorem Squeezed.modifyHead {segs others : List (List CodePoint)} (h : Squeezed segs others)
    (point : CodePoint) : Squeezed (segs.modifyHead (point :: ·)) (others.modifyHead (point :: ·)) := by
  obtain ⟨hhead, hfilled⟩ := h
  cases segs with
  | nil =>
    rw [List.head?_nil, eq_comm, List.head?_eq_none_iff] at hhead
    subst hhead
    exact ⟨rfl, rfl⟩
  | cons first segs =>
    obtain ⟨behind, rfl⟩ : ∃ behind, others = first :: behind := List.head?_eq_some_iff.mp hhead.symm
    refine ⟨rfl, ?_⟩
    -- behind the first segment the filled ones are the same, whether it is empty or not
    have hbehind : segs.filter (· ≠ []) = behind.filter (· ≠ []) := by
      by_cases hempty : first = []
      · subst hempty
        exact hfilled
      · simpa [hempty] using hfilled
    simpa using hbehind

/-- **Squeezing leaves the segments as they are**, up to empty ones. -/
theorem squeezed_splitOn (points : List CodePoint) :
    Squeezed ((squeeze points).splitOn slash) (points.splitOn slash) := by
  induction points using squeeze.induct with
  | case1 first second points hboth ih =>
    rw [Bool.and_eq_true, beq_iff_eq, beq_iff_eq] at hboth
    obtain ⟨rfl, rfl⟩ := hboth
    -- the segment between the two slashes is empty
    rw [squeeze, if_pos (by simp), splitOn_slash_cons (slash :: points)]
    rw [splitOn_slash_cons] at ih ⊢
    exact ⟨ih.head, ih.filled⟩
  | case2 first second points hboth ih =>
    rw [squeeze, if_neg hboth]
    by_cases hfirst : first = slash
    · subst hfirst
      rw [splitOn_slash_cons, splitOn_slash_cons]
      exact ⟨rfl, ih.filled⟩
    · rw [splitOn_cons_of_ne hfirst, splitOn_cons_of_ne hfirst]
      exact ih.modifyHead first
  | case3 points hshort =>
    rw [squeeze.eq_2 points hshort]
    exact ⟨rfl, rfl⟩

/-- A squeezed text that starts with a slash has no other one behind it. -/
theorem squeeze_slash_cons (points : List CodePoint) :
    ∃ rest, squeeze (slash :: points) = slash :: rest ∧ rest.head? ≠ some slash := by
  induction points with
  | nil => exact ⟨[], rfl, nofun⟩
  | cons point points ih =>
    by_cases hpoint : point = slash
    · subst hpoint
      rwa [squeeze, if_pos (by simp)]
    · refine ⟨squeeze (point :: points), ?_, ?_⟩
      · rw [squeeze, if_neg (by simpa using hpoint)]
      · intro hhead
        cases points with
        | nil => exact hpoint (Option.some.inj hhead)
        | cons next points =>
          rw [squeeze, if_neg (by simp [hpoint])] at hhead
          exact hpoint (Option.some.inj hhead)

/-! ## §4. Condensing -/

/-- Empty segments are skipped. -/
theorem foldl_pushSegment_filter (segs stack : List (List CodePoint)) :
    (segs.filter (· ≠ [])).foldl pushSegment stack = segs.foldl pushSegment stack := by
  induction segs generalizing stack with
  | nil => rfl
  | cons segment segs ih =>
    by_cases hempty : segment = []
    · subst hempty
      rw [List.filter_cons_of_neg (by simp), ih]
      rfl
    · rw [List.filter_cons_of_pos (by simpa using hempty), List.foldl_cons, List.foldl_cons, ih]

theorem Squeezed.settle_eq {segs others : List (List CodePoint)} (h : Squeezed segs others) :
    settle segs = settle others := by
  unfold settle
  rw [← foldl_pushSegment_filter segs, h.filled, foldl_pushSegment_filter]

/-- In an absolute path `..` never stays, so that every segment is read as it is for the stack. -/
theorem foldl_pushComponent (segs : List (List CodePoint)) {stack : List (List CodePoint)}
    (hstack : [dot, dot] ∉ stack) :
    segs.foldl (pushComponent true) stack = segs.foldl pushSegment stack := by
  induction segs generalizing stack with
  | nil => rfl
  | cons segment segs ih =>
    have hstep : pushComponent true stack segment = pushSegment stack segment := by
      have hhead : stack.head? ≠ some [dot, dot] := fun h => hstack (List.mem_of_head? h)
      unfold pushComponent pushSegment
      by_cases hdots : segment = [dot, dot]
      · subst hdots
        simp [hhead]
      · simp [hdots]
    have hnext : [dot, dot] ∉ pushSegment stack segment := by
      unfold pushSegment
      split
      · exact hstack
      · split
        · exact fun hmem => hstack (List.mem_of_mem_tail hmem)
        · next hdots => exact List.not_mem_cons_of_ne_of_not_mem (Ne.symm hdots) hstack
    rw [List.foldl_cons, List.foldl_cons, hstep, ih hnext]

/-- A path that starts with one slash is condensed to the segments that are left. -/
theorem condense_slash_cons {points : List CodePoint} (h : points.head? ≠ some slash) :
    condense (slash :: points) = ofSegments (settle ((slash :: points).splitOn slash)) := by
  have hslashes : leadingSlashes (slash :: points) = 1 := by
    have hnone : points.takeWhile (· == slash) = [] := by
      cases points with
      | nil => rfl
      | cons point points =>
        have hpoint : point ≠ slash := fun hpoint => h (congrArg some hpoint)
        exact List.takeWhile_cons_of_neg (by simpa using hpoint)
    rw [leadingSlashes, List.takeWhile_cons_of_pos (by simp), hnone]
    rfl
  unfold condense
  rw [hslashes]
  show (if _ then _ else _) = _
  rw [show ((1 : Nat) != 0) = true from rfl, foldl_pushComponent _ List.not_mem_nil]
  rfl

/-! ## §5. The normal form -/

/-- **The normal form is a slash in front of the segments that are left.** -/
theorem normalize_eq (path : Text) : normalize path = ⟨ofSegments (settle (segments path.points))⟩ := by
  obtain ⟨rest, hsqueeze, hrest⟩ := squeeze_slash_cons (withSlashes path.points)
  have hsettle := (squeezed_splitOn (slash :: withSlashes path.points)).settle_eq
  rw [hsqueeze, splitOn_slash_cons (withSlashes path.points), splitOn_withSlashes] at hsettle
  unfold normalize
  rw [hsqueeze, condense_slash_cons hrest, hsettle]
  -- the empty segment in front of the first slash is skipped
  rfl

example : normalize "//a/./b\\..\\..//../c/" = "/c" := by decide

/-! ## §6. Names and trails -/

/-- A segment that a normal form keeps. -/
def IsName (segment : List CodePoint) : Prop :=
  segment ≠ [] ∧ segment ≠ [dot] ∧ segment ≠ [dot, dot]
    ∧ ∀ point ∈ segment, isSeparator point = false

/-- All segments of a list are names. -/
def AreNames (segs : List (List CodePoint)) : Prop :=
  ∀ segment ∈ segs, IsName segment

/-- The names of a path: the segments that its normal form keeps. -/
def names (path : Text) : List (List CodePoint) :=
  settle (segments path.points)

/-- The path with the given names. -/
def ofNames (segs : List (List CodePoint)) : Text :=
  ⟨ofSegments segs⟩

/-- Every segment behind a slash of its own. -/
def trail (segs : List (List CodePoint)) : List CodePoint :=
  segs.flatMap (slash :: ·)

theorem ofNames_names (path : Text) : ofNames (names path) = normalize path :=
  (normalize_eq path).symm

@[simp] theorem trail_nil : trail [] = [] := rfl

@[simp] theorem trail_cons (segment : List CodePoint) (segs : List (List CodePoint)) :
    trail (segment :: segs) = slash :: segment ++ trail segs := rfl

@[simp] theorem trail_append (xs ys : List (List CodePoint)) :
    trail (xs ++ ys) = trail xs ++ trail ys := by
  simp [trail]

theorem IsName.not_mem_slash {segment : List CodePoint} (h : IsName segment) :
    slash ∉ segment := by
  intro hmem
  have hsep := h.2.2.2 slash hmem
  simp [isSeparator] at hsep

theorem AreNames.of_subset {xs ys : List (List CodePoint)} (h : AreNames ys) (hsub : xs ⊆ ys) :
    AreNames xs :=
  fun segment hmem => h segment (hsub hmem)

theorem areNames_append {xs ys : List (List CodePoint)} :
    AreNames (xs ++ ys) ↔ AreNames xs ∧ AreNames ys := by
  simp only [AreNames, List.mem_append]
  exact ⟨fun h => ⟨fun s hs => h s (.inl hs), fun s hs => h s (.inr hs)⟩,
    fun h s hs => hs.elim (h.1 s) (h.2 s)⟩

/-- The path of a list that is not empty is the trail of the list. -/
theorem ofSegments_eq_trail {segs : List (List CodePoint)} (hne : segs ≠ []) :
    ofSegments segs = trail segs := by
  induction segs with
  | nil => exact absurd rfl hne
  | cons segment segs ih =>
    cases segs with
    | nil => simp [ofSegments]
    | cons next segs =>
      have ih := ih (by simp)
      simp only [ofSegments] at ih ⊢
      simp [List.intercalate_cons_cons, ih]

@[simp] theorem ofNames_nil : ofNames [] = root := rfl

/-! ## §7. Splitting and settling -/

theorem isSeparator_slash : isSeparator slash = true := by
  simp [isSeparator]

/-- No segment of a text holds a separator. -/
theorem not_isSeparator_of_mem_segments {points segment : List CodePoint}
    (hseg : segment ∈ segments points) : ∀ point ∈ segment, isSeparator point = false :=
  fun point hpoint => (Text.forall_of_mem_splitOnP hseg point hpoint).1

/-- Reading one segment leaves names on the stack. -/
theorem areNames_pushSegment {stack : List (List CodePoint)} {segment : List CodePoint}
    (hstack : AreNames stack) (hseg : ∀ point ∈ segment, isSeparator point = false) :
    AreNames (pushSegment stack segment) := by
  unfold pushSegment
  split
  · exact hstack
  · next hskip =>
    split
    · exact hstack.of_subset fun _ hmem => List.mem_of_mem_tail hmem
    · next hdots =>
      intro name hname
      rcases List.mem_cons.mp hname with rfl | hname
      · exact ⟨fun h => hskip (.inl h), fun h => hskip (.inr h), hdots, hseg⟩
      · exact hstack name hname

/-- What is left of segments without separators are names. -/
theorem areNames_settle {segs : List (List CodePoint)}
    (hsegs : ∀ segment ∈ segs, ∀ point ∈ segment, isSeparator point = false) :
    AreNames (settle segs) := by
  suffices h : ∀ stack, AreNames stack → AreNames (segs.foldl pushSegment stack) by
    intro name hname
    exact h [] (by simp [AreNames]) name (List.mem_reverse.mp hname)
  induction segs with
  | nil => exact fun stack hstack => hstack
  | cons segment segs ih =>
    intro stack hstack
    exact ih (fun s hs => hsegs s (List.mem_cons_of_mem _ hs)) _
      (areNames_pushSegment hstack (hsegs segment List.mem_cons_self))

theorem areNames_names (path : Text) : AreNames (names path) :=
  areNames_settle fun _ hseg => not_isSeparator_of_mem_segments hseg

theorem pushSegment_of_isName {stack : List (List CodePoint)} {segment : List CodePoint}
    (h : IsName segment) : pushSegment stack segment = segment :: stack := by
  unfold pushSegment
  rw [if_neg (by simp [h.1, h.2.1]), if_neg h.2.2.1]

/-- Names are all kept. -/
theorem settle_of_areNames {segs : List (List CodePoint)} (h : AreNames segs) :
    settle segs = segs := by
  suffices hfold : ∀ stack, segs.foldl pushSegment stack = segs.reverse ++ stack by
    simp [settle, hfold]
  induction segs with
  | nil => exact fun stack => rfl
  | cons segment segs ih =>
    intro stack
    rw [List.foldl_cons, pushSegment_of_isName (h segment List.mem_cons_self),
      ih (h.of_subset (List.subset_cons_self _ _))]
    simp

/-- What is left of segments is one of them. -/
theorem settle_subset (segs : List (List CodePoint)) : settle segs ⊆ segs := by
  have hpush : ∀ (rest stack : List (List CodePoint)), rest.foldl pushSegment stack ⊆ rest ++ stack := by
    intro rest
    induction rest with
    | nil => exact fun stack => List.Subset.refl stack
    | cons segment rest ih =>
      intro stack name hname
      rw [List.foldl_cons] at hname
      rcases List.mem_append.mp (ih _ hname) with hrest | hstack
      · exact List.mem_append_left _ (List.mem_cons_of_mem _ hrest)
      · unfold pushSegment at hstack
        split at hstack
        · exact List.mem_append_right _ hstack
        · split at hstack
          · exact List.mem_append_right _ (List.mem_of_mem_tail hstack)
          · rcases List.mem_cons.mp hstack with rfl | hstack
            · exact List.mem_append_left _ List.mem_cons_self
            · exact List.mem_append_right _ hstack
  intro name hname
  have hmem := hpush segs [] (List.mem_reverse.mp hname)
  rwa [List.append_nil] at hmem

/-- Splitting the trail of names gives them back, behind an empty segment. -/
theorem segments_trail {segs : List (List CodePoint)} (h : AreNames segs) :
    segments (trail segs) = [] :: segs := by
  unfold segments
  induction segs with
  | nil => simp
  | cons segment segs ih =>
    have ih := ih (h.of_subset (List.subset_cons_self _ _))
    have hseg : ∀ point ∈ segment, isSeparator point = false :=
      (h segment List.mem_cons_self).2.2.2
    have hcons : trail (segment :: segs) = [] ++ slash :: (segment ++ trail segs) := rfl
    rw [hcons, List.splitOnP_append_cons _ _ isSeparator_slash]
    -- the segment ends at the slash of the next one, if there is one
    cases segs with
    | nil => simp [List.splitOnP_eq_singleton hseg]
    | cons next segs =>
      have htail : segment ++ trail (next :: segs) = segment ++ slash :: (next ++ trail segs) :=
        rfl
      have hnext : trail (next :: segs) = [] ++ slash :: (next ++ trail segs) := rfl
      rw [hnext, List.splitOnP_append_cons _ _ isSeparator_slash] at ih
      rw [htail, List.splitOnP_append_cons_of_forall_mem hseg _ isSeparator_slash]
      simpa using ih

/-! ## §8. Paths in normal form -/

/-- Names are the names of their path. -/
theorem names_ofNames {segs : List (List CodePoint)} (h : AreNames segs) :
    names (ofNames segs) = segs := by
  by_cases hnil : segs = []
  · subst hnil
    decide
  · unfold names ofNames
    rw [ofSegments_eq_trail hnil, segments_trail h]
    exact settle_of_areNames h

theorem isNormal_ofNames {segs : List (List CodePoint)} (h : AreNames segs) :
    IsNormal (ofNames segs) := by
  unfold IsNormal
  rw [← ofNames_names, names_ofNames h]

/-- A normal form is its own normal form. -/
theorem isNormal_normalize (path : Text) : IsNormal (normalize path) := by
  rw [← ofNames_names]
  exact isNormal_ofNames (areNames_names path)

theorem IsNormal.ofNames_names {path : Text} (h : IsNormal path) : ofNames (names path) = path :=
  (Path.ofNames_names path).trans h

/-- Paths in normal form with the same names are equal. -/
theorem IsNormal.ext {p q : Text} (hp : IsNormal p) (hq : IsNormal q)
    (h : names p = names q) : p = q := by
  rw [← hp.ofNames_names, ← hq.ofNames_names, h]

@[simp] theorem names_root : names root = [] := by decide

theorem isNormal_root : IsNormal root := by decide

/-- A path in normal form starts with a slash. -/
theorem IsNormal.head?_points {path : Text} (h : IsNormal path) : path.points.head? = some slash := by
  rw [← h.ofNames_names]
  rfl

theorem IsNormal.names_eq_nil_iff {path : Text} (h : IsNormal path) :
    names path = [] ↔ path = root := by
  constructor
  · intro hnil
    rw [← h.ofNames_names, hnil, ofNames_nil]
  · rintro rfl
    exact names_root

/-- The code points of a path in normal form other than the root. -/
theorem IsNormal.points_eq_trail {path : Text} (h : IsNormal path) (hroot : path ≠ root) :
    path.points = trail (names path) := by
  have hne : names path ≠ [] := fun hnil => hroot (h.names_eq_nil_iff.mp hnil)
  rw [← ofSegments_eq_trail hne]
  exact congrArg Text.points h.ofNames_names.symm

/-! ## §9. Paths that stay as they are -/

/-- A path in normal form is the root, or a name behind every slash. -/
theorem isNormal_iff {path : Text} :
    IsNormal path ↔ path = root ∨ ∃ segs, segs ≠ [] ∧ AreNames segs ∧ path.points = trail segs := by
  constructor
  · intro h
    by_cases hroot : path = root
    · exact .inl hroot
    · refine .inr ⟨names path, ?_, areNames_names path, h.points_eq_trail hroot⟩
      exact fun hnil => hroot (h.names_eq_nil_iff.mp hnil)
  · rintro (rfl | ⟨segs, hne, hsegs, hpoints⟩)
    · exact isNormal_root
    · have hpath : ofNames segs = path := Text.ext ((ofSegments_eq_trail hne).trans hpoints.symm)
      exact hpath ▸ isNormal_ofNames hsegs

theorem not_infix_slashes_trail {segs : List (List CodePoint)} (hsegs : AreNames segs) :
    ¬ [slash, slash] <:+: trail segs := by
  induction segs with
  | nil => simp
  | cons name segs ih =>
    have hname : IsName name := hsegs name List.mem_cons_self
    intro hinfix
    rw [trail_cons, List.cons_append, List.infix_cons_iff] at hinfix
    rcases hinfix with hbegins | hinfix
    · -- a name stands behind the first slash, and does not begin with one
      obtain ⟨first, rest, rfl⟩ := List.exists_cons_of_ne_nil hname.1
      rw [List.cons_prefix_cons, List.cons_append, List.cons_prefix_cons] at hbegins
      exact hname.not_mem_slash (hbegins.2.1 ▸ List.mem_cons_self)
    · have hfree : ∀ point, [slash, slash].head? = some point → point ∉ name := by
        intro point hpoint
        cases hpoint
        exact hname.not_mem_slash
      rw [Text.infix_append_of_head_not_mem hfree] at hinfix
      exact ih (hsegs.of_subset (List.subset_cons_self _ _)) hinfix

/-- **No two slashes stand together in a normal form.** -/
theorem IsNormal.not_infix_slashes {path : Text} (h : IsNormal path) : ¬ [slash, slash] <:+: path.points := by
  by_cases hroot : path = root
  · subst hroot
    decide
  · rw [h.points_eq_trail hroot]
    exact not_infix_slashes_trail (areNames_names path)

/-! ## §10. Paths that go on -/

/-- The segments behind a slash are read after all others. -/
theorem segments_append_slash (front rest : List CodePoint) :
    segments (front ++ slash :: rest) = segments front ++ segments rest :=
  List.splitOnP_append_cons front rest isSeparator_slash

/-- What further segments lead to depends on what the first ones have left. -/
theorem settle_append_congr {segs others : List (List CodePoint)} (h : settle segs = settle others)
    (rest : List (List CodePoint)) : settle (segs ++ rest) = settle (others ++ rest) := by
  have hstack : segs.foldl pushSegment [] = others.foldl pushSegment [] := List.reverse_inj.mp h
  unfold settle
  rw [List.foldl_append, List.foldl_append, hstack]

/-- The names of a normal form are those of the path. -/
theorem names_normalize (path : Text) : names (normalize path) = names path := by
  rw [← ofNames_names, names_ofNames (areNames_names path)]

/-- The beginning of a path may be put into normal form first. -/
theorem normalize_append_slash (front rest : Text) :
    normalize (front ++ "/" ++ rest) = normalize (normalize front ++ "/" ++ rest) := by
  have hpoints (path : Text) : (path ++ "/" ++ rest).points = path.points ++ slash :: rest.points :=
    List.append_assoc path.points [slash] rest.points
  have hsettle : settle (segments front.points) = settle (segments (normalize front).points) :=
    (names_normalize front).symm
  rw [normalize_eq, normalize_eq (normalize front ++ "/" ++ rest), hpoints, hpoints, segments_append_slash,
    segments_append_slash, settle_append_congr hsettle]

/-! ## §11. The normal form -/

/-- **The normal form is the stack of segments**, joined by slashes behind a slash: segments that are
empty or `.` are skipped, and `..` takes the last one off, if there is one.  So the paths that stay
as they are consist of the root alone or of a name behind every slash, a normal form is its own, and a
path may be put into normal form before it goes on. -/
theorem normalize_stack :
    (∀ path : Text, normalize path = ⟨slash :: [slash].intercalate (settle (segments path.points))⟩) ∧
    (∀ path : Text, normalize path = path ↔
      path = root ∨ ∃ segs, segs ≠ [] ∧ AreNames segs ∧ path.points = trail segs) ∧
    (∀ path : Text, normalize (normalize path) = normalize path) ∧
    ∀ front rest : Text, normalize (front ++ "/" ++ rest) = normalize (normalize front ++ "/" ++ rest) :=
  ⟨normalize_eq, fun _ => isNormal_iff, isNormal_normalize, normalize_append_slash⟩

end LivePreview.Path
