/-
  LivePreview.Proofs.Json.Document
  ────────────────────────────────
  **Which texts are JSON values, and what the fault of any other text says.**

  A text is a document if it denotes a value with blanks around it (`IsDocument`).  Every
  step of the reader either leaves what the grammar derives or fails at a place that it
  has come to (`readValue_settled`), so that a text can be read exactly if it is a document
  (`read_eq_ok_iff`).

  Two causes are limits of the reader rather than mistakes in the text.  A scan of the text,
  which knows whether it is inside a text and how many arrays and objects are open, shows
  that such a cause only comes up in a text that goes beyond the limit
  (`IsBeyond.not_withinLimits`).
-/
import LivePreview.Proofs.Json.Grammar

namespace LivePreview.Json

open LivePreview.Number (Binary64 maxDigits ofDigits signed)
open LivePreview.Text (Part)

variable {points rest after : List CodePoint}

/-! ## §1. Scanning a text -/

/-- Whether a scan is inside a text of JSON, and if so, behind a backslash. -/
inductive Mode where
  | outside
  | inside
  | escaped
  deriving DecidableEq, Repr

/-- How far a scan has come: where it is, and how many arrays and objects are open. -/
structure Scan where
  mode : Mode
  depth : Nat
  deriving DecidableEq, Repr

namespace Scan

/-- The scan of one more code point. -/
def step (scan : Scan) (point : CodePoint) : Scan :=
  match scan.mode with
  | .escaped => { scan with mode := .inside }
  | .inside =>
    if point = .char '"' then { scan with mode := .outside }
    else if point = .char '\\' then { scan with mode := .escaped }
    else scan
  | .outside =>
    if point = .char '"' then { scan with mode := .inside }
    else if point = .char '[' ∨ point = .char '\x7b' then { scan with depth := scan.depth + 1 }
    else if point = .char ']' ∨ point = .char '\x7d' then { scan with depth := scan.depth - 1 }
    else scan

/-- The scan of some more code points. -/
def along (scan : Scan) (points : List CodePoint) : Scan :=
  points.foldl step scan

end Scan

/-- The scan of a text before its first character. -/
def Scan.start : Scan := ⟨.outside, 0⟩

/-- What stands between two places of a text leads a scan on. -/
def Passes (scan next : Scan) (points rest : List CodePoint) : Prop :=
  ∃ before, points = before ++ rest ∧ scan.along before = next

/-- What stands between two places of a text closes what it opens. -/
abbrev Closes (points rest : List CodePoint) : Prop :=
  ∀ depth, Passes ⟨.outside, depth⟩ ⟨.outside, depth⟩ points rest

/-- Outside the texts in it, no number has more digits and no more arrays and objects lie inside
one another than the reader allows. -/
def WithinLimits (points : List CodePoint) : Prop :=
  ∀ scan rest, Passes .start scan points rest → scan.mode = .outside →
    scan.depth ≤ depthLimit ∧ (digitsOf rest).length ≤ maxDigits

section Passes

variable {scan next last : Scan}

theorem Passes.refl (scan : Scan) (points : List CodePoint) : Passes scan scan points points :=
  ⟨[], rfl, rfl⟩

theorem Passes.trans (h : Passes scan next points rest) (hrest : Passes next last rest after) :
    Passes scan last points after := by
  obtain ⟨before, rfl, rfl⟩ := h
  obtain ⟨between, rfl, rfl⟩ := hrest
  exact ⟨before ++ between, (List.append_assoc _ _ _).symm, List.foldl_append⟩

theorem Passes.cons {point : CodePoint} (hstep : scan.step point = next) (h : Passes next last points rest) :
    Passes scan last (point :: points) rest := by
  obtain ⟨before, rfl, rfl⟩ := h
  subst hstep
  exact ⟨point :: before, rfl, rfl⟩

theorem Passes.single {point : CodePoint} (hstep : scan.step point = next) :
    Passes scan next (point :: rest) rest :=
  .cons hstep (.refl _ _)

end Passes

/-- The characters that lead a scan outside texts to another state. -/
def marks : List CodePoint :=
  [.char '"', .char '[', .char '\x7b', .char ']', .char '\x7d']

theorem step_of_not_mem_marks {point : CodePoint} (h : point ∉ marks) (depth : Nat) :
    Scan.step ⟨.outside, depth⟩ point = ⟨.outside, depth⟩ := by
  simp only [marks, List.mem_cons, List.not_mem_nil, or_false, not_or] at h
  simp [Scan.step, h]

theorem closes_append {before : List CodePoint} (h : ∀ point ∈ before, point ∉ marks) (rest : List CodePoint) :
    Closes (before ++ rest) rest := by
  refine fun depth => ⟨before, rfl, ?_⟩
  induction before with
  | nil => rfl
  | cons point before ih =>
    rw [List.forall_mem_cons] at h
    show Scan.along (Scan.step _ point) before = _
    rw [step_of_not_mem_marks h.1, ih h.2]

/-- The characters of a class are none of the marks. -/
theorem not_mem_marks_of_is {p : Char → Bool} (hmarks : ∀ mark ∈ marks, mark.is p = false) {point : CodePoint}
    (h : point.is p = true) : point ∉ marks :=
  fun hmem => Bool.false_ne_true ((hmarks point hmem).symm.trans h)

theorem depth_along_le (scan : Scan) (points : List CodePoint) :
    (scan.along points).depth ≤ scan.depth + points.length := by
  induction points generalizing scan with
  | nil => exact Nat.le_refl _
  | cons point points ih =>
    -- one character opens at most one array or object
    have hstep : (scan.step point).depth ≤ scan.depth + 1 := by
      unfold Scan.step
      split
      · exact Nat.le_succ _
      · split_ifs <;> exact Nat.le_succ _
      · split_ifs
        · exact Nat.le_succ _
        · exact Nat.le_refl _
        · exact Nat.le_succ_of_le (Nat.sub_le _ _)
        · exact Nat.le_succ _
    have hrest : ((scan.step point).along points).depth ≤ (scan.step point).depth + points.length := ih _
    show ((scan.step point).along points).depth ≤ _
    rw [List.length_cons]
    omega

/-- A short text cannot go beyond the limits. -/
theorem withinLimits_of_length_le (h : points.length ≤ depthLimit) : WithinLimits points := by
  rintro scan rest ⟨before, rfl, rfl⟩ -
  have hdepth := depth_along_le .start before
  have hdigits : (digitsOf rest).length ≤ rest.length := (List.takeWhile_prefix _).length_le
  have hlimits : depthLimit ≤ maxDigits := by decide
  have hstart : Scan.start.depth = 0 := rfl
  rw [List.length_append] at h
  constructor <;> omega

theorem Gap.closes (h : Gap points rest) : Closes points rest := by
  obtain ⟨blanks, hblanks, rfl⟩ := h
  exact closes_append (fun point hmem => not_mem_marks_of_is (by decide) (hblanks point hmem)) rest

/-- A hexadecimal digit leaves a scan inside a text. -/
theorem step_inside_of_digit? {point : CodePoint} {value : Nat} (h : digit? point = some value) (depth : Nat) :
    Scan.step ⟨.inside, depth⟩ point = ⟨.inside, depth⟩ := by
  have hquote : point ≠ .char '"' := by
    rintro rfl
    cases h
  have hback : point ≠ .char '\\' := by
    rintro rfl
    cases h
  simp [Scan.step, hquote, hback]

/-- The inside of a text leads out of it. -/
theorem Body.passes {parts : List Part} (h : Body points parts rest) (depth : Nat) :
    Passes ⟨.inside, depth⟩ ⟨.outside, depth⟩ points rest := by
  induction h with
  | close => exact .single rfl
  | kept hquote hback _ _ ih => exact .cons (by simp [Scan.step, hquote, hback]) ih
  | short _ _ ih => exact .cons rfl (.cons rfl ih)
  | unit hcode _ ih =>
    simp only [unit?, Option.bind_eq_bind, Option.bind_eq_some_iff] at hcode
    obtain ⟨_, ha, _, hb, _, hc, _, hd, -⟩ := hcode
    exact .cons rfl (.cons rfl (.cons (step_inside_of_digit? ha depth) (.cons (step_inside_of_digit? hb depth)
      (.cons (step_inside_of_digit? hc depth) (.cons (step_inside_of_digit? hd depth) ih)))))

/-- The characters that numbers are written with. -/
def inNumeral (c : Char) : Bool :=
  c.isDigit || ['-', '+', '.', 'e', 'E'].contains c

/-- The code points are characters of numbers. -/
def AreInNumeral (points : List CodePoint) : Prop :=
  ∀ point ∈ points, point.is inNumeral = true

theorem AreDigits.inNumeral (h : AreDigits points) : AreInNumeral points := by
  intro point hmem
  have hdigit := h point hmem
  cases point with
  | half offset => cases hdigit
  | char c => simp [CodePoint.is, Json.inNumeral, show c.isDigit = true from hdigit]

theorem AreInNumeral.append (h : AreInNumeral points) (hrest : AreInNumeral rest) :
    AreInNumeral (points ++ rest) := by
  intro point hmem
  rcases List.mem_append.mp hmem with hmem | hmem
  · exact h point hmem
  · exact hrest point hmem

theorem IsSign.inNumeral {sign : List CodePoint} (h : IsSign sign) : AreInNumeral sign := by
  unfold AreInNumeral
  rcases h with rfl | rfl <;> decide

theorem IsWhole.inNumeral {whole : List CodePoint} (h : IsWhole whole) : AreInNumeral whole := by
  rcases h with rfl | ⟨hdigits, -, -⟩
  · unfold AreInNumeral
    decide
  · exact hdigits.inNumeral

theorem IsFraction.inNumeral {fraction : List CodePoint} (h : IsFraction fraction) : AreInNumeral fraction := by
  rcases h with rfl | ⟨digits, hdigits, -, rfl⟩
  · exact nofun
  · exact List.forall_mem_cons.mpr ⟨rfl, hdigits.inNumeral⟩

theorem IsExponent.inNumeral {exponent : List CodePoint} (h : IsExponent exponent) : AreInNumeral exponent := by
  rcases h with rfl | ⟨mark, digits, ⟨letter, hletter, hmark⟩, hdigits, -, rfl⟩
  · exact nofun
  · have hmark : AreInNumeral mark := by
      unfold AreInNumeral
      simp only [List.mem_cons, List.not_mem_nil, or_false] at hletter
      rcases hletter with rfl | rfl <;> rcases hmark with rfl | rfl | rfl <;> decide
    exact hmark.append hdigits.inNumeral

theorem Numeral.inNumeral {numeral : List CodePoint} {value : Json} (h : Numeral numeral value) :
    AreInNumeral numeral := by
  cases h with
  | whole hsign hwhole _ => exact hsign.inNumeral.append hwhole.inNumeral
  | double hsign hwhole hfraction hexponent _ _ =>
    exact ((hsign.inNumeral.append hwhole.inNumeral).append hfraction.inNumeral).append hexponent.inNumeral

theorem AreInNumeral.closes {numeral : List CodePoint} (h : AreInNumeral numeral) (rest : List CodePoint) :
    Closes (numeral ++ rest) rest :=
  closes_append (fun point hmem => not_mem_marks_of_is (by decide) (h point hmem)) rest

theorem Scalar.closes {value : Json} (h : Scalar points value rest) : Closes points rest := by
  cases h with
  | word hentry =>
    have hwords : ∀ entry ∈ words, ∀ point ∈ entry.1.points, point ∉ marks := by decide
    exact closes_append (hwords _ hentry) rest
  | number hnumeral => exact hnumeral.inNumeral.closes rest
  | text hbody => exact fun depth => .cons rfl (hbody.passes depth)

theorem Series.passes {α : Type} {P : List CodePoint → α → List CodePoint → Prop} {closing : CodePoint}
    {items : List α} {depth : Nat} {next : Scan}
    (hP : ∀ {points rest item}, P points item rest → Closes points rest)
    (hclosing : Scan.step ⟨.outside, depth⟩ closing = next) (h : Series closing P points items rest) :
    Passes ⟨.outside, depth⟩ next points rest := by
  induction h with
  | last hitem hclose => exact (hP hitem _).trans ((hclose.closes _).trans (.single hclosing))
  | more hitem hcomma hgap _ ih =>
    exact (hP hitem _).trans ((hcomma.closes _).trans (.cons rfl ((hgap.closes _).trans ih)))

section Collections

variable {P : List CodePoint → Json → List CodePoint → Prop}
  (hP : ∀ {points rest value}, P points value rest → Closes points rest)

include hP

theorem Field.closes {field : Text × Json} (h : Field P points field rest) : Closes points rest := by
  intro depth
  cases h with
  | intro hname hcolon hgap hvalue =>
    have hbehind := (hcolon.closes depth).trans (.cons rfl ((hgap.closes depth).trans (hP hvalue depth)))
    exact .cons rfl ((hname.passes depth).trans hbehind)

theorem Level.closes {value : Json} (h : Level P points value rest) : Closes points rest := by
  intro depth
  cases h with
  | scalar h => exact h.closes depth
  | emptyArray hclose | emptyObject hclose => exact .cons rfl ((hclose.closes _).trans (.single rfl))
  | array hgap h => exact .cons rfl ((hgap.closes _).trans (h.passes hP rfl))
  | object hgap h => exact .cons rfl ((hgap.closes _).trans (h.passes (Field.closes hP) rfl))

end Collections

theorem Denotes.closes : ∀ {levels : Nat} {points rest : List CodePoint} {value : Json},
    Denotes levels points value rest → Closes points rest
  | 0, _, _, _, h => Scalar.closes h
  | _ + 1, _, _, _, h => Level.closes Denotes.closes h

/-! ## §2. What a reading step leaves -/

/-- The cause is a limit of the reader. -/
def Cause.isLimit : Cause → Bool
  | .tooManyDigits _ | .tooDeep => true
  | _ => false

/-- What shows behind a scan goes beyond the limits: one more array or object than may be open, or a
number of too many digits. -/
def IsBeyond (limit : Nat) (scan : Scan) (place : List CodePoint) : Prop :=
  scan = ⟨.outside, limit⟩ ∧ (∃ more, place = .char '[' :: more ∨ place = .char '\x7b' :: more)
    ∨ scan.mode = .outside
      ∧ ∃ sign digits, IsSign sign ∧ place = sign ++ digits ∧ maxDigits < (digitsOf digits).length

/-- A fault shows at a place that the reader has come to, and if it is a limit of the reader, then the
text goes beyond it there. -/
def FailsAt (limit : Nat) (scan : Scan) (points : List CodePoint) (cause : Cause)
    (place : List CodePoint) : Prop :=
  ∃ next, Passes scan next points place ∧ (cause.isLimit = true → IsBeyond limit next place)

/-- A reading step outside texts leaves what it should, or fails at a place that it has come to. -/
def Settled {α : Type} (limit depth : Nat) (Q : List CodePoint → α → List CodePoint → Prop)
    (points : List CodePoint) : Reading α → Prop
  | .ok (result, rest) => Q points result rest
  | .error (cause, place) => FailsAt limit ⟨.outside, depth⟩ points cause place

variable {limit depth levels : Nat} {scan next : Scan} {cause : Cause} {place : List CodePoint}

theorem Settled.imp {α : Type} {Q Q' : List CodePoint → α → List CodePoint → Prop} {reading : Reading α}
    (h : Settled limit depth Q points reading)
    (hQ : ∀ result rest, Q points result rest → Q' points result rest) :
    Settled limit depth Q' points reading := by
  cases reading with
  | ok result => exact hQ _ _ h
  | error error => exact h

theorem FailsAt.here (h : cause.isLimit = false) : FailsAt limit scan points cause points :=
  ⟨scan, .refl _ _, fun hlimit => absurd (h.symm.trans hlimit) Bool.false_ne_true⟩

theorem FailsAt.behind (h : Passes scan next points rest) (hrest : FailsAt limit next rest cause place) :
    FailsAt limit scan points cause place := by
  obtain ⟨last, hpasses, hbeyond⟩ := hrest
  exact ⟨last, h.trans hpasses, hbeyond⟩

theorem consPart_eq_error_iff {part : Part} {reading : Reading (List Part)} {error : Cause × List CodePoint} :
    consPart part reading = .error error ↔ reading = .error error := by
  rcases reading with found | ⟨parts, rest⟩
  · exact Iff.rfl
  · exact iff_of_false nofun nofun

/-- A fault of a text shows at its opening quote or inside it. -/
theorem place_of_readParts {opening : List CodePoint} (hsuffix : points <:+ opening)
    (h : readParts opening points = .error (cause, place)) : place <:+ opening ∧ cause.isLimit = false := by
  -- along the reader, which only goes on to what is behind
  fun_induction readParts opening points with
  | case1 =>
    cases h
    exact ⟨List.suffix_rfl, rfl⟩
  | case2 => cases h
  | case3 =>
    cases h
    exact ⟨List.suffix_rfl, rfl⟩
  | case4 a b c d next points code hcode ih =>
    exact ih (.trans ⟨[.char '\\', .char 'u', a, b, c, d], rfl⟩ hsuffix) (consPart_eq_error_iff.mp h)
  | case5 =>
    cases h
    exact ⟨(List.suffix_cons _ _).trans hsuffix, rfl⟩
  | case6 =>
    cases h
    exact ⟨(List.suffix_cons _ _).trans hsuffix, rfl⟩
  | case7 point points _ _ c hc ih =>
    exact ih (.trans ⟨[.char '\\', point], rfl⟩ hsuffix) (consPart_eq_error_iff.mp h)
  | case8 =>
    cases h
    exact ⟨hsuffix, rfl⟩
  | case9 =>
    cases h
    exact ⟨hsuffix, rfl⟩
  | case10 point points _ _ _ _ _ ih =>
    exact ih ((List.suffix_cons _ _).trans hsuffix) (consPart_eq_error_iff.mp h)

theorem readText_settled (points : List CodePoint) :
    Settled limit depth (fun _ text rest => ∃ parts, Body points parts rest ∧ text = .ofParts parts)
      (.char '"' :: points) (readText (.char '"' :: points)) := by
  unfold readText
  rw [List.drop_one, List.tail_cons]
  split
  · next hparts => exact ⟨_, body_of_readParts hparts, rfl⟩
  · next error herror =>
    obtain ⟨⟨before, hbefore⟩, hcause⟩ := place_of_readParts (List.suffix_cons _ _) herror
    exact ⟨_, ⟨before, hbefore.symm, rfl⟩, fun hlimit => absurd (hcause.symm.trans hlimit) Bool.false_ne_true⟩

theorem length_wholeOf_le (points : List CodePoint) : (wholeOf points).length ≤ (digitsOf points).length := by
  unfold wholeOf
  split
  · exact Nat.succ_le_succ (Nat.zero_le _)
  · exact Nat.le_refl _

theorem readNumber_settled (points : List CodePoint) :
    Settled limit depth (fun points value rest => ∃ numeral, Numeral numeral value ∧ points = numeral ++ rest)
      points (readNumber points) := by
  cases h : readNumber points with
  | ok result => exact numeral_of_readNumber h
  | error error =>
    obtain ⟨hsign, behind, hbehind⟩ := signOf_spec points
    unfold readNumber at h
    dsimp only at h
    split at h
    · cases h
      exact .here rfl
    · split at h
      · split at h
        · cases h
        · next hlong =>
          cases h
          refine ⟨_, .refl _ _, fun _ => .inr ⟨rfl, signOf points, behind, hsign, hbehind.symm, ?_⟩⟩
          have hdrop : points.drop (signOf points).length = behind := by
            conv => lhs; rw [← hbehind, List.drop_left' (by rw [hbehind])]
          rw [hdrop] at hlong
          exact Nat.lt_of_lt_of_le (Nat.lt_of_not_le hlong) (length_wholeOf_le behind)
      · split at h
        · cases h
        · cases h
          exact .here rfl

theorem readPlain_settled (points : List CodePoint) :
    Settled limit depth Scalar points (readPlain points) := by
  unfold readPlain
  split
  · next word value hfind =>
    have hprefix := List.find?_some hfind
    change word.points.isPrefixOf points = true at hprefix
    obtain ⟨rest, rfl⟩ := List.isPrefixOf_iff_prefix.mp hprefix
    show Scalar _ value ((word.points ++ rest).drop word.points.length)
    rw [List.drop_left]
    exact .word (List.mem_of_find?_eq_some hfind)
  · refine (readNumber_settled points).imp ?_
    rintro value rest ⟨numeral, hnumeral, rfl⟩
    exact .number hnumeral

/-! ## §3. Values -/

section Collections

variable {P : List CodePoint → Json → List CodePoint → Prop}
  (hP : ∀ {points rest value}, P points value rest → Closes points rest)
  (hvalue : ∀ fuel points, Settled limit (depth + 1) P points (readValue levels fuel points))

include hP hvalue

theorem readItems_settled (fuel : Nat) (points : List CodePoint) :
    Settled limit (depth + 1) (Series (.char ']') P) points (readItems levels fuel points) := by
  -- by induction on the steps that are left, each item takes one
  induction fuel generalizing points with
  | zero => exact .here rfl
  | succ fuel ih =>
    have hitem := hvalue fuel points
    rw [readItems]
    split
    · next error herror =>
      rw [herror] at hitem
      exact hitem
    · next item behind hread =>
      rw [hread] at hitem
      have hpasses := hP hitem (depth + 1)
      split
      · next hclose => exact .last hitem (gap_of_skip_eq hclose)
      · next next hcomma =>
        have hgap := gap_of_skip_eq hcomma
        have hmore := ih (skip next)
        split
        · next items rest hrest =>
          rw [hrest] at hmore
          exact .more hitem hgap (gap_skip next) hmore
        · next error herror =>
          rw [herror] at hmore
          exact hmore.behind (hpasses.trans ((hgap.closes _).trans (.cons rfl ((gap_skip next).closes _))))
      · exact (FailsAt.here rfl).behind (hpasses.trans ((gap_skip behind).closes _))

omit hvalue in
theorem readBehind_settled {fuel : Nat} {field : Text × Json} {behind : List CodePoint}
    (hfield : Field P points field behind)
    (ih : ∀ points, Settled limit (depth + 1) (Series (.char '\x7d') (Field P)) points
      (readFields levels fuel points)) :
    Settled limit (depth + 1) (Series (.char '\x7d') (Field P)) points
      (readBehind levels fuel field behind) := by
  have hpasses := hfield.closes hP (depth + 1)
  unfold readBehind
  split
  · next hclose => exact .last hfield (gap_of_skip_eq hclose)
  · next next hcomma =>
    have hgap := gap_of_skip_eq hcomma
    have hmore := ih (skip next)
    split
    · next fields rest hrest =>
      rw [hrest] at hmore
      exact .more hfield hgap (gap_skip next) hmore
    · next error herror =>
      rw [herror] at hmore
      exact hmore.behind (hpasses.trans ((hgap.closes _).trans (.cons rfl ((gap_skip next).closes _))))
  · exact (FailsAt.here rfl).behind (hpasses.trans ((gap_skip behind).closes _))

theorem readFields_settled (fuel : Nat) (points : List CodePoint) :
    Settled limit (depth + 1) (Series (.char '\x7d') (Field P)) points (readFields levels fuel points) := by
  induction fuel generalizing points with
  | zero => exact .here rfl
  | succ fuel ih =>
    rw [readFields.eq_def]
    dsimp only
    split
    · next tail =>
      have hname : Settled limit (depth + 1) _ _ _ := readText_settled tail
      split
      · next error herror =>
        rw [herror] at hname
        exact hname
      · next name behind hread =>
        rw [hread] at hname
        obtain ⟨parts, hbody, rfl⟩ := hname
        have hquoted : Passes ⟨.outside, depth + 1⟩ ⟨.outside, depth + 1⟩ (.char '"' :: tail) behind :=
          .cons rfl (hbody.passes _)
        split
        · next next hcolon =>
          have hgap := gap_of_skip_eq hcolon
          have hfield := hvalue fuel (skip next)
          split
          · next error herror =>
            rw [herror] at hfield
            exact hfield.behind (hquoted.trans ((hgap.closes _).trans (.cons rfl ((gap_skip next).closes _))))
          · next value rest hrest =>
            rw [hrest] at hfield
            exact readBehind_settled hP (.intro hbody hgap (gap_skip next) hfield) ih
        · exact (FailsAt.here rfl).behind (hquoted.trans ((gap_skip behind).closes _))
    · exact .here rfl

end Collections

theorem Denotes.of_scalar {value : Json} (h : Scalar points value rest) :
    ∀ levels, Denotes levels points value rest
  | 0 => h
  | _ + 1 => .scalar h

/-- **A reading step leaves what the grammar derives, or fails at a place that it has come to**, where
a limit of the reader is exceeded if the cause says so. -/
theorem readValue_settled (levels : Nat) : ∀ (depth fuel : Nat) (points : List CodePoint),
    Settled (depth + levels) depth (Denotes levels) points (readValue levels fuel points) := by
  -- inside an array or an object one level less is left and one more is open, so that the limit is the same
  induction levels using Nat.strong_induction_on with
  | _ levels ih =>
    intro depth fuel points
    cases fuel with
    | zero => exact .here rfl
    | succ fuel =>
      rw [readValue.eq_def]
      dsimp only
      split
      · next tail =>
        have htext : Settled (depth + levels) depth _ _ _ := readText_settled tail
        split
        · next text rest hread =>
          rw [hread] at htext
          obtain ⟨parts, hbody, rfl⟩ := htext
          exact .of_scalar (.text hbody) _
        · next error herror =>
          rw [herror] at htext
          exact htext
      · next tail => exact ⟨_, .refl _ _, fun _ => .inl ⟨rfl, tail, .inr rfl⟩⟩
      · next tail => exact ⟨_, .refl _ _, fun _ => .inl ⟨rfl, tail, .inl rfl⟩⟩
      · next tail levels =>
        have hvalue := ih levels (Nat.lt_succ_self _) (depth + 1)
        rw [Nat.add_right_comm] at hvalue
        split
        · next rest hclose => exact .emptyObject (gap_of_skip_eq hclose)
        · have hfields := readFields_settled Denotes.closes hvalue fuel (skip tail)
          split
          · next fields rest hread =>
            rw [hread] at hfields
            exact .object (gap_skip tail) hfields
          · next error herror =>
            rw [herror] at hfields
            exact hfields.behind (.cons rfl ((gap_skip tail).closes _))
      · next tail levels =>
        have hvalue := ih levels (Nat.lt_succ_self _) (depth + 1)
        rw [Nat.add_right_comm] at hvalue
        split
        · next rest hclose => exact .emptyArray (gap_of_skip_eq hclose)
        · have hitems := readItems_settled Denotes.closes hvalue fuel (skip tail)
          split
          · next items rest hread =>
            rw [hread] at hitems
            exact .array (gap_skip tail) hitems
          · next error herror =>
            rw [herror] at hitems
            exact hitems.behind (.cons rfl ((gap_skip tail).closes _))
      · exact (readPlain_settled points).imp fun value rest h => .of_scalar h _

/-! ## §4. Documents -/

/-- The text is one value with blanks around it. -/
def IsDocument (levels : Nat) (points : List CodePoint) (value : Json) : Prop :=
  ∃ start rest, Gap points start ∧ Denotes levels start value rest ∧ Gap rest []

theorem IsDocument.head?_ne {value : Json} (h : IsDocument levels points value) :
    points.head? ≠ some (.char '\uFEFF') := by
  obtain ⟨start, rest, ⟨blanks, hblanks, rfl⟩, hvalue, -⟩ := h
  intro hhead
  -- a byte order mark is no blank and begins no value
  cases blanks with
  | nil =>
    obtain ⟨more, hmore⟩ := List.head?_eq_some_iff.mp hhead
    exact ((readable_denotes levels).starts hvalue).ne_cons rfl more hmore
  | cons blank blanks =>
    obtain rfl := Option.some.inj hhead
    exact Bool.false_ne_true (hblanks _ List.mem_cons_self)

/-- **A text is read exactly if it is a document**, and then as the value that it denotes. -/
theorem readWithin_eq_ok_iff {text : Text} {value : Json} :
    readWithin levels text = .ok value ↔ IsDocument levels text.points value := by
  constructor
  · intro h
    have hvalue := readValue_settled levels 0 (2 * text.points.length + 2) (skip text.points)
    unfold readWithin at h
    dsimp only at h
    split at h
    · cases h
    · split at h
      · cases h
      · next found rest hread =>
        rw [hread] at hvalue
        split at h
        · next hend =>
          cases h
          exact ⟨_, rest, gap_skip _, hvalue, gap_of_skip_eq hend⟩
        · cases h
  · intro h
    obtain ⟨start, rest, hgap, hvalue, hend⟩ := id h
    have hskip := hgap.skip_eq.trans ((readable_denotes levels).starts hvalue).skip_eq
    have hlength := hgap.length_le
    have hread := (readable_denotes levels).read hvalue (hend.headFree nofun) (2 * text.points.length + 2)
      (by omega)
    unfold readWithin
    dsimp only
    rw [if_neg (by rw [beq_iff_eq]; exact h.head?_ne), hskip, hread]
    have hnothing : skip rest = [] := hend.skip_eq
    simp only [hnothing]

theorem read_eq_ok_iff {text : Text} {value : Json} :
    read text = .ok value ↔ IsDocument depthLimit text.points value :=
  readWithin_eq_ok_iff

theorem IsBeyond.not_withinLimits (hpasses : Passes .start scan points place)
    (h : IsBeyond depthLimit scan place) :
    ¬ WithinLimits points := by
  intro hwithin
  rcases h with ⟨rfl, more, hmore⟩ | ⟨hmode, sign, digits, hsign, rfl, hlong⟩
  · -- behind the opening mark one more is open
    have hopened : Passes ⟨.outside, depthLimit⟩ ⟨.outside, depthLimit + 1⟩ place more := by
      rcases hmore with rfl | rfl <;> exact .single rfl
    exact absurd (hwithin _ _ (hpasses.trans hopened) rfl).1 (Nat.not_succ_le_self _)
  · have hscan : scan = ⟨.outside, scan.depth⟩ := by rw [← hmode]
    rw [hscan] at hpasses
    exact absurd (hwithin _ _ (hpasses.trans (hsign.inNumeral.closes _ _)) rfl).2 (Nat.not_le_of_lt hlong)

/-- **A text within the limits is not refused because of them**, and the fault of a text lies in it. -/
theorem position_le_and_not_isLimit_of_read {text : Text} {position : Nat}
    (h : read text = .error ⟨cause, position⟩) :
    position ≤ text.length ∧ (WithinLimits text.points → cause.isLimit = false) := by
  have hvalue := readValue_settled depthLimit 0 (2 * text.points.length + 2) (skip text.points)
  unfold read readWithin at h
  dsimp only at h
  split at h
  · cases h
    exact ⟨Nat.zero_le _, fun _ => rfl⟩
  · split at h
    · next place hread =>
      cases h
      rw [hread] at hvalue
      obtain ⟨next, hpasses, hbeyond⟩ := hvalue
      rw [Nat.zero_add] at hbeyond
      refine ⟨Nat.sub_le _ _, fun hwithin => Bool.eq_false_iff.mpr fun hlimit => ?_⟩
      exact (hbeyond hlimit).not_withinLimits (((gap_skip _).closes 0).trans hpasses) hwithin
    · split at h
      · cases h
      · cases h
        exact ⟨Nat.sub_le _ _, fun _ => rfl⟩

end LivePreview.Json
