/-
  LivePreview.Proofs.Text.Occurrence
  ──────────────────────────────────
  **What a text holds when a pattern in it has been replaced.**

  A text consists of the pieces between the occurrences of a pattern, with the pattern
  between them (`intercalate_between`); replacing the pattern puts something else there.
  So whether the new text holds a mark, some list that is looked for, can be told from
  the old text and from what is put in (`infix_replaceAll_iff`), provided that no
  occurrence of the mark reaches across the seams: pattern and replacement have to begin
  and end with members that the mark lacks (`Fences`).

  The pieces are those that the pattern cuts the text into when it is looked for from the
  left and each time behind the occurrence before (`isCut_iff`).  They do not reach across
  a member that the pattern lacks (`points_replaceAll_append_cons`), and escaping keeps them
  (`between_flatMap`).  The lines of a text are told by the lines of its parts
  (`lines_unlines`).
-/
import Mathlib.Data.List.Infix
import LivePreview.Text.Occurrence

namespace LivePreview.Text

variable {α : Type}

/-! ## §1. Pieces -/

theorem consPiece_ne_nil (x : α) (pieces : List (List α)) : consPiece x pieces ≠ [] := by
  cases pieces <;> exact List.cons_ne_nil _ _

theorem intercalate_consPiece (pattern : List α) (x : α) (pieces : List (List α)) :
    pattern.intercalate (consPiece x pieces) = x :: pattern.intercalate pieces := by
  cases pieces with
  | nil => rfl
  | cons piece pieces => cases pieces <;> simp [consPiece, List.intercalate_cons_cons]

theorem betweenFrom_ne_nil [BEq α] (pattern : List α) (skip : Nat) (xs : List α) :
    betweenFrom pattern skip xs ≠ [] := by
  induction xs generalizing skip with
  | nil => simp [betweenFrom]
  | cons x xs ih =>
    cases skip with
    | succ skip => exact ih skip
    | zero =>
      unfold betweenFrom
      split
      · exact List.cons_ne_nil _ _
      · exact consPiece_ne_nil x _

/-- What is left behind an occurrence when its first member has been passed. -/
theorem drop_of_append_eq_cons {pattern rest xs : List α} {x : α} (hne : pattern ≠ [])
    (h : pattern ++ rest = x :: xs) : xs.drop (pattern.length - 1) = rest := by
  obtain ⟨p, ps, rfl⟩ := List.exists_cons_of_ne_nil hne
  rw [List.length_cons, Nat.add_sub_cancel, ← (List.cons.inj h).2]
  exact List.drop_left

theorem intercalate_betweenFrom [BEq α] [LawfulBEq α] {pattern : List α} (hne : pattern ≠ [])
    (skip : Nat) (xs : List α) :
    pattern.intercalate (betweenFrom pattern skip xs) = xs.drop skip := by
  induction xs generalizing skip with
  | nil => simp [betweenFrom]
  | cons x xs ih =>
    cases skip with
    | succ skip => exact ih skip
    | zero =>
      unfold betweenFrom
      split
      · -- an occurrence: an empty piece, and the rest of the pattern is skipped
        next hbegins =>
        obtain ⟨rest, hrest⟩ := List.isPrefixOf_iff_prefix.mp hbegins
        rw [List.intercalate_cons_of_ne_nil (betweenFrom_ne_nil _ _ _), ih, List.nil_append,
          drop_of_append_eq_cons hne hrest, hrest]
        rfl
      · rw [intercalate_consPiece, ih]
        rfl

/-- The pieces of a list with the pattern between them are the list. -/
theorem intercalate_between [BEq α] [LawfulBEq α] {pattern : List α} (hne : pattern ≠ [])
    (xs : List α) : pattern.intercalate (between pattern xs) = xs :=
  intercalate_betweenFrom hne 0 xs

/-- The pieces of a list between the occurrences of a pattern.  Each occurrence is the leftmost one in what
is left behind the one before it, so that no two of them overlap. -/
inductive IsCut (pattern : List α) : List α → List (List α) → Prop where
  | last {xs : List α} (absent : ¬pattern <:+: xs) : IsCut pattern xs [xs]
  | next {piece rest : List α} {pieces : List (List α)}
      (leftmost : ∀ i < piece.length, ¬pattern <+: (piece ++ pattern ++ rest).drop i)
      (later : IsCut pattern rest pieces) : IsCut pattern (piece ++ pattern ++ rest) (piece :: pieces)

section IsCut

variable {pattern : List α} {xs : List α} {pieces : List (List α)}

/-- A member may be put in front of the first piece if no occurrence begins with it. -/
theorem IsCut.cons {x : α} (h : IsCut pattern xs pieces) (hother : ¬pattern <+: x :: xs) :
    IsCut pattern (x :: xs) (consPiece x pieces) := by
  cases h with
  | last habsent => exact .last fun hinfix => (List.infix_cons_iff.mp hinfix).elim hother habsent
  | @next piece rest pieces hleftmost hlater =>
    show IsCut pattern ((x :: piece) ++ pattern ++ rest) ((x :: piece) :: pieces)
    refine .next (fun i hi => ?_) hlater
    cases i with
    | zero => exact hother
    | succ i => exact hleftmost i (Nat.lt_of_succ_lt_succ hi)

theorem isCut_betweenFrom [BEq α] [LawfulBEq α] (hne : pattern ≠ []) (skip : Nat) (xs : List α) :
    IsCut pattern (xs.drop skip) (betweenFrom pattern skip xs) := by
  have hnil : IsCut pattern [] [[]] := .last fun hinfix => hne (List.infix_nil.mp hinfix)
  induction xs generalizing skip with
  | nil => simpa [betweenFrom] using hnil
  | cons x xs ih =>
    cases skip with
    | succ skip => exact ih skip
    | zero =>
      unfold betweenFrom
      split
      · next hbegins =>
        obtain ⟨rest, hrest⟩ := List.isPrefixOf_iff_prefix.mp hbegins
        have hlater := ih (pattern.length - 1)
        rw [drop_of_append_eq_cons hne hrest] at hlater
        rw [List.drop_zero, ← hrest]
        show IsCut pattern ([] ++ pattern ++ rest) ([] :: _)
        exact .next nofun hlater
      · next hother =>
        have hlater := ih 0
        exact hlater.cons fun hbegins => hother (List.isPrefixOf_iff_prefix.mpr hbegins)

/-- Two ways to cut a list agree on where the pattern stands first. -/
theorem IsCut.unique {other : List (List α)} (h : IsCut pattern xs pieces) (hother : IsCut pattern xs other) :
    other = pieces := by
  induction h generalizing other with
  | last habsent =>
    cases hother with
    | last _ => rfl
    | @next piece rest pieces _ _ => exact absurd ⟨piece, rest, rfl⟩ habsent
  | @next piece rest pieces hleftmost hlater ih =>
    generalize hxs : piece ++ pattern ++ rest = xs at hother hleftmost
    cases hother with
    | last habsent => exact absurd ⟨piece, rest, hxs⟩ habsent
    | @next piece' rest' pieces' hleftmost' hlater' =>
      -- neither of the first pieces can be the shorter one
      have hbegins : ∀ front back : List α, pattern <+: (front ++ pattern ++ back).drop front.length := by
        intro front back
        rw [List.append_assoc, List.drop_left]
        exact List.prefix_append _ _
      have hle : piece'.length ≤ piece.length := Nat.le_of_not_lt fun hlt =>
        hleftmost' piece.length hlt (hxs ▸ hbegins piece rest)
      have hge : piece.length ≤ piece'.length := Nat.le_of_not_lt fun hlt =>
        hleftmost piece'.length hlt (hbegins piece' rest')
      rw [List.append_assoc, List.append_assoc] at hxs
      obtain ⟨rfl, hbehind⟩ := List.append_inj hxs (Nat.le_antisymm hge hle)
      rw [List.append_cancel_left hbehind] at ih
      rw [ih hlater']

/-- **A list is cut in one way only**, and its pieces are those between the occurrences. -/
theorem isCut_iff [BEq α] [LawfulBEq α] (hne : pattern ≠ []) :
    IsCut pattern xs pieces ↔ between pattern xs = pieces := by
  have hbetween : IsCut pattern xs (between pattern xs) := isCut_betweenFrom hne 0 xs
  constructor
  · exact fun h => h.unique hbetween
  · rintro rfl
    exact hbetween

/-- The first piece is the whole list exactly if the pattern stands nowhere in it. -/
theorem IsCut.headD_eq_iff (h : IsCut pattern xs pieces) (hne : pattern ≠ []) :
    pieces.headD [] = xs ↔ ¬ pattern <:+: xs := by
  cases h with
  | last habsent => exact iff_of_true rfl habsent
  | @next piece rest pieces _ _ =>
    refine iff_of_false (fun heq => ?_) (not_not_intro ⟨piece, rest, rfl⟩)
    have hlength := congrArg List.length heq
    have hpos := List.length_pos_of_ne_nil hne
    simp only [List.headD_cons, List.length_append] at hlength
    omega

theorem IsCut.length_pos (h : IsCut pattern xs pieces) : 0 < pieces.length := by
  cases h <;> exact Nat.succ_pos _

/-- A list in which the pattern stands is cut into several pieces, and no other list is. -/
theorem IsCut.one_lt_length_iff (h : IsCut pattern xs pieces) : 1 < pieces.length ↔ pattern <:+: xs := by
  cases h with
  | last habsent => exact iff_of_false (Nat.lt_irrefl 1) habsent
  | @next piece rest pieces _ hlater =>
    exact iff_of_true (Nat.succ_lt_succ hlater.length_pos) ⟨piece, rest, rfl⟩

end IsCut

/-- A pattern occurs in a text if and only if it stands there. -/
theorem occurrences_pos_iff {pattern text : Text} (hne : pattern.points ≠ []) :
    0 < occurrences pattern text ↔ pattern.points <:+: text.points := by
  have hcut : IsCut pattern.points text.points (between pattern.points text.points) :=
    (isCut_iff hne).mpr rfl
  rw [← hcut.one_lt_length_iff]
  exact Nat.sub_pos_iff_lt

theorem length_between {pattern text : Text} (hne : pattern.points ≠ []) :
    (between pattern.points text.points).length = occurrences pattern text + 1 := by
  have hpos := ((isCut_iff hne).mpr rfl : IsCut pattern.points text.points _).length_pos
  exact (Nat.sub_add_cancel hpos).symm

/-! ## §2. Marks and seams -/

/-- A list begins and ends, at different places, with members that a mark lacks. -/
def Fences (mark joint : List α) : Prop :=
  ∃ first inner last, joint = first :: (inner ++ [last]) ∧ first ∉ mark ∧ last ∉ mark

/-- An occurrence of a mark does not reach across a member that the mark lacks. -/
theorem infix_append_cons_iff {mark : List α} {a : α} (ha : a ∉ mark) (xs ys : List α) :
    mark <:+: xs ++ a :: ys ↔ mark <:+: xs ∨ mark <:+: ys := by
  have hfront : ∀ {part : List α}, part ⊆ mark → part <+: a :: ys → part = [] := by
    intro part hsub hbegins
    rcases List.prefix_cons_iff.mp hbegins with hnil | ⟨rest, hcons, -⟩
    · exact hnil
    · exact absurd (hsub (hcons ▸ List.mem_cons_self)) ha
  rw [List.infix_append_iff, List.infix_cons_iff]
  constructor
  · rintro (hxs | (hbegins | hys) | ⟨left, right, hsplit, hleft, hright⟩)
    · exact .inl hxs
    · rw [hfront (List.Subset.refl mark) hbegins]
      exact .inl (List.nil_infix)
    · exact .inr hys
    · have hnil := hfront (hsplit ▸ List.subset_append_right left right) hright
      rw [hsplit, hnil, List.append_nil]
      exact .inl hleft.isInfix
  · rintro (hxs | hys)
    · exact .inl hxs
    · exact .inr (.inl (.inr hys))

theorem infix_fenced_iff {mark inner : List α} {first last : α} (hfirst : first ∉ mark)
    (hlast : last ∉ mark) (xs ys : List α) :
    mark <:+: xs ++ first :: (inner ++ [last]) ++ ys
      ↔ mark <:+: xs ∨ mark <:+: inner ∨ mark <:+: ys := by
  have hassoc : xs ++ first :: (inner ++ [last]) ++ ys = xs ++ first :: (inner ++ last :: ys) := by
    simp
  rw [hassoc, infix_append_cons_iff hfirst, infix_append_cons_iff hlast]

/-- A fenced list may be set between pieces: a mark that occurs there occurs in one of the pieces,
or in the list. -/
theorem infix_intercalate_iff {mark joint : List α} (hne : mark ≠ []) (hfence : Fences mark joint)
    (pieces : List (List α)) :
    mark <:+: joint.intercalate pieces
      ↔ (∃ piece ∈ pieces, mark <:+: piece) ∨ (1 < pieces.length ∧ mark <:+: joint) := by
  obtain ⟨first, inner, last, rfl, hfirst, hlast⟩ := hfence
  have hjoint : mark <:+: first :: (inner ++ [last]) ↔ mark <:+: inner := by
    have h : mark <:+: [] ++ first :: (inner ++ [last]) ++ [] ↔ _ := infix_fenced_iff hfirst hlast [] []
    simpa [hne] using h
  rw [hjoint]
  induction pieces with
  | nil => simp [hne]
  | cons piece pieces ih =>
    cases pieces with
    | nil => simp
    | cons next rest =>
      rw [List.intercalate_cons_cons, infix_fenced_iff hfirst hlast, show mark <:+: _ ↔ _ from ih]
      simp only [List.mem_cons, exists_eq_or_imp, List.length_cons]
      constructor
      · rintro (hpiece | hinner | hlater | ⟨-, hinner⟩)
        · exact .inl (.inl hpiece)
        · exact .inr ⟨by omega, hinner⟩
        · exact .inl (.inr hlater)
        · exact .inr ⟨by omega, hinner⟩
      · rintro ((hpiece | hlater) | ⟨-, hinner⟩)
        · exact .inl hpiece
        · exact .inr (.inr (.inl hlater))
        · exact .inr (.inl hinner)

/-! ## §3. Replacing -/

theorem map_intercalate {β : Type} (f : α → β) (joint : List α) (pieces : List (List α)) :
    (joint.intercalate pieces).map f = (joint.map f).intercalate (pieces.map (List.map f)) := by
  induction pieces with
  | nil => rfl
  | cons piece pieces ih =>
    cases pieces with
    | nil => simp
    | cons next rest =>
      rw [List.intercalate_cons_cons, List.map_append, List.map_append, ih]
      simp [List.intercalate_cons_cons]

theorem flatMap_intercalate {β : Type} (f : α → List β) (joint : List α) (pieces : List (List α)) :
    (joint.intercalate pieces).flatMap f
      = (joint.flatMap f).intercalate (pieces.map fun piece => piece.flatMap f) := by
  induction pieces with
  | nil => rfl
  | cons piece pieces ih =>
    cases pieces with
    | nil => simp
    | cons next rest =>
      rw [List.intercalate_cons_cons, List.flatMap_append, List.flatMap_append, ih]
      simp [List.intercalate_cons_cons]

theorem not_mem_intercalate {a : α} {joint : List α} {pieces : List (List α)} (hjoint : a ∉ joint)
    (h : ∀ piece ∈ pieces, a ∉ piece) : a ∉ joint.intercalate pieces := by
  induction pieces with
  | nil => exact List.not_mem_nil
  | cons piece pieces ih =>
    rw [List.forall_mem_cons] at h
    cases pieces with
    | nil => simpa using h.1
    | cons next rest => simp [List.intercalate_cons_cons, h.1, hjoint, ih h.2]

/-- **What a text holds behind a replacement.**  It is looked for behind a translation of code
points, such as one that takes capital letters for small ones. -/
theorem infix_replaceAll_iff {f : CodePoint → CodePoint} {mark : List CodePoint}
    {pattern new : Text} (hne : mark ≠ []) (hpattern : Fences mark (pattern.points.map f))
    (hnew : Fences mark (new.points.map f)) (habsent : ¬ mark <:+: pattern.points.map f)
    (text : Text) :
    mark <:+: (replaceAll pattern new text).points.map f
      ↔ mark <:+: text.points.map f
        ∨ (0 < occurrences pattern text ∧ mark <:+: new.points.map f) := by
  have hpoints : pattern.points ≠ [] := by
    intro hnil
    obtain ⟨first, inner, last, heq, -, -⟩ := hpattern
    rw [hnil] at heq
    cases heq
  have htext := congrArg (List.map f) (intercalate_between hpoints text.points)
  rw [map_intercalate] at htext
  have hcount : 1 < (between pattern.points text.points).length ↔ 0 < occurrences pattern text := by
    unfold occurrences
    omega
  -- both texts have the same pieces, and the pattern itself does not hold the mark
  unfold replaceAll
  rw [map_intercalate, infix_intercalate_iff hne hnew, List.length_map, hcount, ← htext,
    infix_intercalate_iff hne hpattern]
  simp only [habsent, and_false, or_false]

/-- A list between pieces takes room for each of the seams. -/
theorem length_intercalate (joint : List α) {pieces : List (List α)} (hne : pieces ≠ []) :
    (joint.intercalate pieces).length = pieces.flatten.length + (pieces.length - 1) * joint.length := by
  induction pieces with
  | nil => exact absurd rfl hne
  | cons piece pieces ih =>
    cases pieces with
    | nil => simp
    | cons next rest =>
      rw [List.intercalate_cons_cons, List.length_append, List.length_append, ih (List.cons_ne_nil _ _)]
      simp only [List.flatten_cons, List.length_append, List.length_cons, Nat.add_sub_cancel, Nat.add_mul]
      omega

/-- A text grows with each occurrence by as much as the new text is longer than the pattern. -/
theorem length_replaceAll {pattern : Text} (hne : pattern.points ≠ []) (new text : Text) :
    ((replaceAll pattern new text).length : Int)
      = text.length + occurrences pattern text * ((new.length : Int) - pattern.length) := by
  have hpieces : between pattern.points text.points ≠ [] := betweenFrom_ne_nil _ _ _
  have hold : text.points.length = (between pattern.points text.points).flatten.length
      + occurrences pattern text * pattern.points.length := by
    rw [← congrArg List.length (intercalate_between hne text.points)]
    exact length_intercalate pattern.points hpieces
  have hnew : (replaceAll pattern new text).points.length
      = (between pattern.points text.points).flatten.length
        + occurrences pattern text * new.points.length :=
    length_intercalate new.points hpieces
  unfold Text.length
  rw [hold, hnew, Int.mul_sub]
  push_cast
  omega

/-- A single code point is replaced wherever it stands. -/
theorem points_replaceAll_singleton (point : CodePoint) (new text : Text) :
    (replaceAll ⟨[point]⟩ new text).points
      = text.points.flatMap fun other => if other = point then new.points else [other] := by
  show new.points.intercalate (betweenFrom [point] 0 text.points) = _
  induction text.points with
  | nil => rfl
  | cons x xs ih =>
    rw [List.flatMap_cons, ← ih, betweenFrom]
    by_cases heq : x = point
    · rw [if_pos (by simp [heq]), if_pos heq, List.intercalate_cons_of_ne_nil (betweenFrom_ne_nil _ _ _)]
      rfl
    · rw [if_neg (by simpa using Ne.symm heq), if_neg heq, intercalate_consPiece]
      rfl

/-- A text in which a single code point has been replaced holds it no more. -/
theorem not_mem_replaceAll {point : CodePoint} {new : Text} (hnew : point ∉ new.points)
    (text : Text) : point ∉ (replaceAll ⟨[point]⟩ new text).points := by
  rw [points_replaceAll_singleton, List.mem_flatMap]
  rintro ⟨other, -, hmem⟩
  split at hmem
  · exact hnew hmem
  · next hother => exact hother (List.mem_singleton.mp hmem).symm

/-- Part of a mark that begins in front of a member that the mark lacks ends there, too. -/
theorem prefix_append_cons_iff {mark : List α} {a : α} (ha : a ∉ mark) (xs ys : List α) :
    mark <+: xs ++ a :: ys ↔ mark <+: xs := by
  refine ⟨fun h => ?_, fun h => h.trans (List.prefix_append _ _)⟩
  induction xs generalizing mark with
  | nil =>
    rcases List.prefix_cons_iff.mp h with rfl | ⟨rest, rfl, -⟩
    · exact List.nil_prefix
    · exact absurd List.mem_cons_self ha
  | cons x xs ih =>
    cases mark with
    | nil => exact List.nil_prefix
    | cons m mark =>
      rw [List.cons_append, List.cons_prefix_cons] at h
      exact List.cons_prefix_cons.mpr ⟨h.1, ih (fun hmem => ha (List.mem_cons_of_mem m hmem)) h.2⟩

theorem intercalate_betweenFrom_append_cons [BEq α] [LawfulBEq α] {pattern : List α} {a : α}
    (hne : pattern ≠ []) (ha : a ∉ pattern) {skip : Nat} {xs : List α} (hskip : skip ≤ xs.length)
    (new ys : List α) :
    new.intercalate (betweenFrom pattern skip (xs ++ a :: ys))
      = new.intercalate (betweenFrom pattern skip xs) ++ a :: new.intercalate (between pattern ys) := by
  have hbegins : ∀ xs, pattern.isPrefixOf (xs ++ a :: ys) = pattern.isPrefixOf xs := fun xs =>
    Bool.eq_iff_iff.mpr (by
      rw [List.isPrefixOf_iff_prefix, List.isPrefixOf_iff_prefix, prefix_append_cons_iff ha])
  induction xs generalizing skip with
  | nil =>
    obtain rfl : skip = 0 := Nat.le_zero.mp hskip
    have hnot : ¬ pattern.isPrefixOf (a :: ys) = true := by
      rw [← List.nil_append (a :: ys), hbegins, List.isPrefixOf_iff_prefix, List.prefix_nil]
      exact hne
    have hstep : betweenFrom pattern 0 (a :: ys) = consPiece a (between pattern ys) := if_neg hnot
    rw [List.nil_append, hstep, intercalate_consPiece]
    rfl
  | cons x xs ih =>
    cases skip with
    | succ skip => exact ih (Nat.le_of_succ_le_succ hskip)
    | zero =>
      rw [List.cons_append, betweenFrom, ← List.cons_append, hbegins, betweenFrom]
      split
      · -- what is skipped behind the first member of the pattern lies in front of the fence
        next hfound =>
        have hlength := (List.isPrefixOf_iff_prefix.mp hfound).length_le
        rw [List.length_cons] at hlength
        rw [List.intercalate_cons_of_ne_nil (betweenFrom_ne_nil _ _ _),
          List.intercalate_cons_of_ne_nil (betweenFrom_ne_nil _ _ _), ih (by omega)]
        simp only [List.nil_append, List.append_assoc]
      · rw [intercalate_consPiece, intercalate_consPiece, ih (Nat.zero_le _), List.cons_append]

/-- A member that the pattern lacks keeps apart what is replaced in front of it and behind it. -/
theorem points_replaceAll_append_cons {pattern : Text} {point : CodePoint}
    (hne : pattern.points ≠ []) (hpoint : point ∉ pattern.points) (new : Text)
    (xs ys : List CodePoint) :
    (replaceAll pattern new ⟨xs ++ point :: ys⟩).points
      = (replaceAll pattern new ⟨xs⟩).points ++ point :: (replaceAll pattern new ⟨ys⟩).points :=
  intercalate_betweenFrom_append_cons hne hpoint (Nat.zero_le _) new.points ys

/-- A text stays as it is exactly if the pattern stands nowhere in it, when what is put in begins with
a member that the pattern lacks. -/
theorem replaceAll_eq_self_iff {pattern new : Text} {point : CodePoint} (hne : pattern.points ≠ [])
    (hnew : new.points.head? = some point) (hpoint : point ∉ pattern.points) (text : Text) :
    replaceAll pattern new text = text ↔ ¬ pattern.points <:+: text.points := by
  have hcut : IsCut pattern.points text.points (between pattern.points text.points) :=
    (isCut_iff hne).mpr rfl
  have hself := intercalate_between hne text.points
  rw [Text.ext_iff]
  show new.points.intercalate (between pattern.points text.points) = text.points ↔ _
  generalize between pattern.points text.points = pieces at hcut hself
  generalize text.points = points at hcut hself
  cases hcut with
  | last habsent =>
    rw [List.intercalate_singleton]
    exact iff_of_true rfl habsent
  | @next piece rest pieces _ hlater =>
    -- behind the first piece one text goes on with what is put in, the other with the pattern
    refine iff_of_false (fun heq => ?_) (not_not_intro ⟨piece, rest, rfl⟩)
    have hpieces := List.ne_nil_of_length_pos hlater.length_pos
    rw [← hself, List.intercalate_cons_of_ne_nil hpieces, List.intercalate_cons_of_ne_nil hpieces,
      List.append_assoc, List.append_assoc] at heq
    have hbehind := congrArg List.head? (List.append_cancel_left heq)
    rw [List.head?_append, hnew, List.head?_append_of_ne_nil _ hne] at hbehind
    exact hpoint (List.mem_of_head? hbehind.symm)

/-! ## §4. Escaping -/

section Escaping

variable {β : Type}

/-- An escape that keeps away from a mark: a member stands for itself behind a translation, or it is
not in the mark, and what is written for it begins with a member that the mark lacks and does not
hold the start of the mark any more. -/
def Escapes (mark : List β) (write : α → List β) (translate : α → β) : Prop :=
  ∀ a, write a = [translate a]
    ∨ translate a ∉ mark ∧ ∃ first tail, write a = first :: tail ∧ first ∉ mark
      ∧ ∀ b, mark.head? = some b → b ∉ tail

variable {mark : List β} {write : α → List β} {translate : α → β}

/-- A mark does not begin where its first member is missing. -/
theorem infix_append_of_head_not_mem {tail : List β} (h : ∀ b, mark.head? = some b → b ∉ tail)
    (ys : List β) : mark <:+: tail ++ ys ↔ mark <:+: ys := by
  induction tail with
  | nil => rfl
  | cons t tail ih =>
    have htail : ∀ b, mark.head? = some b → b ∉ tail := fun b hb hmem =>
      h b hb (List.mem_cons_of_mem _ hmem)
    rw [List.cons_append, List.infix_cons_iff, ih htail]
    refine ⟨fun hor => hor.elim (fun hbegins => ?_) id, .inr⟩
    cases mark with
    | nil => exact List.nil_infix
    | cons m rest =>
      obtain ⟨rfl, -⟩ := List.cons_prefix_cons.mp hbegins
      exact absurd List.mem_cons_self (h m rfl)

/-- A part of a mark begins a text if and only if it begins what the text is escaped as. -/
theorem prefix_flatMap_iff (h : Escapes mark write translate) {part : List β} (hpart : part ⊆ mark)
    (xs : List α) : part <+: xs.flatMap write ↔ part <+: xs.map translate := by
  induction xs generalizing part with
  | nil => rfl
  | cons x xs ih =>
    cases part with
    | nil => simp
    | cons p part =>
      have hp : p ∈ mark := hpart List.mem_cons_self
      rw [List.flatMap_cons, List.map_cons]
      rcases h x with hkept | ⟨hother, first, tail, hwritten, hfirst, -⟩
      · rw [hkept, List.singleton_append, List.cons_prefix_cons, List.cons_prefix_cons,
          ih fun b hb => hpart (List.mem_cons_of_mem _ hb)]
      · rw [hwritten, List.cons_append, List.cons_prefix_cons, List.cons_prefix_cons]
        constructor
        · rintro ⟨rfl, -⟩
          exact absurd hp hfirst
        · rintro ⟨rfl, -⟩
          exact absurd hp hother

/-- **What a text holds when it is escaped** is what it holds anyway. -/
theorem infix_flatMap_iff (h : Escapes mark write translate) (xs : List α) :
    mark <:+: xs.flatMap write ↔ mark <:+: xs.map translate := by
  induction xs with
  | nil => rfl
  | cons x xs ih =>
    have hbegins := prefix_flatMap_iff h (List.Subset.refl mark) (x :: xs)
    rw [List.map_cons, List.infix_cons_iff, ← List.map_cons, ← hbegins, ← ih, List.flatMap_cons]
    rcases h x with hkept | ⟨-, first, tail, hwritten, hfirst, htail⟩
    · rw [hkept, List.singleton_append, List.infix_cons_iff]
    · -- nothing of the mark begins in what is written for the member
      rw [hwritten, List.cons_append, List.infix_cons_iff, infix_append_of_head_not_mem htail]

/-- A mark begins in what is written for some members only where it begins among them. -/
theorem not_prefix_drop_flatMap {mark : List α} {write : α → List α} (h : Escapes mark write id)
    (hne : mark ≠ []) {front back : List α}
    (hleftmost : ∀ i < front.length, ¬ mark <+: (front ++ back).drop i) :
    ∀ i < (front.flatMap write).length, ¬ mark <+: ((front ++ back).flatMap write).drop i := by
  induction front with
  | nil => exact fun i hi => absurd hi (Nat.not_lt_zero i)
  | cons x front ih =>
    have hlater := ih fun i hi => hleftmost (i + 1) (Nat.succ_lt_succ hi)
    intro i hi hbegins
    by_cases hlt : i < (write x).length
    · rcases h x with hkept | ⟨-, first, tail, hwritten, hfirst, htail⟩
      · -- the member stands for itself, and so do those behind it as far as the mark reaches
        rw [hkept, List.length_singleton, Nat.lt_one_iff] at hlt
        rw [hlt, List.drop_zero, prefix_flatMap_iff h (List.Subset.refl mark), List.map_id] at hbegins
        exact hleftmost 0 (Nat.succ_pos _) hbegins
      · obtain ⟨m, rest, rfl⟩ := List.exists_cons_of_ne_nil hne
        rw [List.cons_append, List.flatMap_cons, hwritten,
          List.drop_append_of_le_length (by rw [← hwritten]; omega)] at hbegins
        rw [hwritten] at hlt
        rw [List.drop_eq_getElem_cons hlt, List.cons_append, List.cons_prefix_cons] at hbegins
        cases i with
        | zero => exact hfirst (hbegins.1 ▸ List.mem_cons_self)
        | succ i => exact htail m rfl (hbegins.1 ▸ List.getElem_mem _)
    · rw [List.flatMap_cons, List.length_append] at hi
      rw [List.cons_append, List.flatMap_cons, List.drop_append, List.drop_eq_nil_of_le (by omega),
        List.nil_append] at hbegins
      exact hlater _ (by omega) hbegins

/-- **What is escaped is cut where it was to be cut anyway.** -/
theorem between_flatMap [BEq α] [LawfulBEq α] {mark : List α} {write : α → List α}
    (h : Escapes mark write id) (hne : mark ≠ []) (xs : List α) :
    between mark (xs.flatMap write) = (between mark xs).map fun piece => piece.flatMap write := by
  have hmark : mark.flatMap write = mark := by
    have hkept : ∀ a ∈ mark, write a = [a] := fun a ha => (h a).resolve_right fun hother => hother.1 ha
    rw [List.flatMap_congr hkept]
    exact List.flatMap_singleton' mark
  have hcut : IsCut mark xs (between mark xs) := (isCut_iff hne).mpr rfl
  rw [← isCut_iff hne]
  generalize between mark xs = pieces at hcut
  induction hcut with
  | @last xs habsent =>
    refine .last fun hinfix => habsent ?_
    rwa [infix_flatMap_iff h, List.map_id] at hinfix
  | @next piece rest pieces hleftmost _ ih =>
    rw [List.append_assoc] at hleftmost
    have hleftmost := not_prefix_drop_flatMap h hne hleftmost
    rw [← List.append_assoc, List.flatMap_append, List.flatMap_append, hmark] at hleftmost
    rw [List.flatMap_append, List.flatMap_append, hmark]
    exact .next hleftmost ih

end Escaping

/-! ## §5. Lines -/

theorem unlines_cons (line next : Text) (ls : List Text) :
    unlines (line :: next :: ls) = line ++ ("\n" : Text) ++ unlines (next :: ls) := by
  apply Text.ext
  show List.intercalate _ (line.points :: next.points :: ls.map points) = _
  rw [List.intercalate_cons_cons]
  rfl

/-- What a list is split into at its separators holds none of them, and nothing new. -/
theorem forall_of_mem_splitOnP {isEnd : α → Bool} {items part : List α}
    (hpart : part ∈ items.splitOnP isEnd) : ∀ item ∈ part, isEnd item = false ∧ item ∈ items := by
  induction items generalizing part with
  | nil => simp_all
  | cons first items ih =>
    have hlater : ∀ {part : List α}, part ∈ items.splitOnP isEnd →
        ∀ item ∈ part, isEnd item = false ∧ item ∈ first :: items :=
      fun hpart item hitem => ⟨(ih hpart item hitem).1, List.mem_cons_of_mem _ (ih hpart item hitem).2⟩
    rw [List.splitOnP_cons_eq_if_modifyHead] at hpart
    split at hpart
    · -- a separator ends an empty part
      rcases List.mem_cons.mp hpart with rfl | hpart
      · exact nofun
      · exact hlater hpart
    · -- anything else joins the part behind it
      next hfirst =>
      cases hsplit : items.splitOnP isEnd with
      | nil => simp [hsplit] at hpart
      | cons head rest =>
        rw [hsplit] at hpart hlater
        rw [List.modifyHead_cons] at hpart
        rcases List.mem_cons.mp hpart with rfl | hpart
        · intro item hitem
          rcases List.mem_cons.mp hitem with rfl | hitem
          · exact ⟨by simpa using hfirst, List.mem_cons_self⟩
          · exact hlater List.mem_cons_self item hitem
        · exact hlater (List.mem_cons_of_mem _ hpart)

theorem unlines_lines (text : Text) : unlines (lines text) = text := by
  apply Text.ext
  show [CodePoint.char '\n'].intercalate (((text.points.splitOn (.char '\n')).map Text.mk).map points) = _
  rw [List.map_map, show points ∘ Text.mk = id from rfl, List.map_id, List.intercalate_splitOn]

/-- A line has no lines but itself. -/
theorem lines_of_mem_lines {line text : Text} (h : line ∈ lines text) : lines line = [line] := by
  obtain ⟨part, hpart, rfl⟩ := List.mem_map.mp h
  have hfeed : CodePoint.char '\n' ∉ part := by
    intro hmem
    rw [List.splitOn_eq_splitOnP] at hpart
    have hno := (forall_of_mem_splitOnP hpart _ hmem).1
    rw [beq_self_eq_true] at hno
    cases hno
  show (part.splitOn (.char '\n')).map Text.mk = _
  rw [List.splitOn_eq_singleton hfeed]
  rfl

/-- **The lines of texts that stand one below the other** are the lines of the first one, of the second
one, and so on. -/
theorem lines_unlines {texts : List Text} (hne : texts ≠ []) :
    lines (unlines texts) = texts.flatMap lines := by
  induction texts with
  | nil => exact absurd rfl hne
  | cons text texts ih =>
    cases texts with
    | nil =>
      show ((("\n" : Text).points.intercalate [text.points]).splitOn (.char '\n')).map Text.mk = _
      rw [List.intercalate_singleton, List.flatMap_cons, List.flatMap_nil, List.append_nil]
      rfl
    | cons next rest =>
      have hsplit : lines (text ++ ("\n" : Text) ++ unlines (next :: rest))
          = lines text ++ lines (unlines (next :: rest)) := by
        show ((text.points ++ [CodePoint.char '\n'] ++ (unlines (next :: rest)).points).splitOn _).map _ = _
        rw [List.append_assoc]
        show ((text.points ++ CodePoint.char '\n' :: (unlines (next :: rest)).points).splitOn _).map _ = _
        rw [List.splitOn_append_cons_self, List.map_append]
        rfl
      rw [unlines_cons, hsplit, ih (List.cons_ne_nil _ _), List.flatMap_cons (x := text)]

theorem infix_unlines_of_mem {line : Text} {ls : List Text} (h : line ∈ ls) :
    line.points <:+: (unlines ls).points := by
  induction ls with
  | nil => exact absurd h List.not_mem_nil
  | cons first ls ih =>
    cases ls with
    | nil =>
      obtain rfl := List.mem_singleton.mp h
      show line.points <:+: ("\n" : Text).points.intercalate [line.points]
      rw [List.intercalate_singleton]
    | cons next ls =>
      rw [unlines_cons]
      rcases List.mem_cons.mp h with rfl | h
      · exact ⟨[], _, by rw [List.nil_append]; exact (List.append_assoc _ _ _).symm⟩
      · exact (ih h).trans (List.suffix_append _ _).isInfix

/-- A character other than a line feed stands in a text if it stands in one of its lines. -/
theorem not_mem_unlines {point : CodePoint} {ls : List Text} (hpoint : point ≠ .char '\n')
    (h : ∀ line ∈ ls, point ∉ line.points) : point ∉ (unlines ls).points := by
  have hfeed : point ∉ ("\n" : Text).points := fun hmem => hpoint (List.mem_singleton.mp hmem)
  refine not_mem_intercalate hfeed fun piece hpiece => ?_
  obtain ⟨line, hline, rfl⟩ := List.mem_map.mp hpiece
  exact h line hline

/-- The code points of a string whose characters are given. -/
theorem points_ofString {s : String} {cs : List Char} (hs : s = String.ofList cs) :
    (s : Text).points = cs.map .char := by
  show s.toList.map CodePoint.char = _
  rw [hs, String.toList_ofList]

theorem not_mem_ofString {c : Char} {s : String} {cs : List Char} (hs : s = String.ofList cs)
    (h : c ∉ cs) : .char c ∉ (s : Text).points := by
  rw [points_ofString hs]
  simpa using h

/-- Strings with the same code points are equal. -/
theorem points_ofString_injective : Function.Injective fun s : String => (s : Text).points := by
  have hchar : Function.Injective CodePoint.char := fun a b hab => CodePoint.char.inj hab
  intro s other heq
  exact String.toList_inj.mp (List.map_injective_iff.mpr hchar heq)

end LivePreview.Text
