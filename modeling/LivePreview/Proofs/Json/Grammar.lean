/-
  LivePreview.Proofs.Json.Grammar
  ───────────────────────────────
  **The grammar of JSON, and that the reader reads what it derives.**

  Every relation of the grammar leads from one place of a text to a later one: what
  stands between the two denotes a value.

      Gap       blanks
      Body      the inside of a text, up to and with its closing quote
      Numeral   a number, which is exact if it has neither fraction nor exponent
      Scalar    a word, a number or a text
      Field     a name, a colon and a value
      Series    items or fields with commas between them, up to and with a closing mark
      Denotes   a value in which so many arrays and objects may lie inside one another

  Texts and numbers are read just as the grammar derives them (`readText_quote_eq_ok_iff`,
  `numeral_of_readNumber`).  A value that is denoted is read if it ends where a value may
  end (`readable_denotes`): the reader goes on with a number as long as digits stand behind
  it (`HeadFree`), but nothing in the grammar lets digits stand there.
-/
import LivePreview.Proofs.Json.Reading

namespace LivePreview.Json

open LivePreview.Number (Binary64 maxDigits ofDigits signed)
open LivePreview.Text (Part)

variable {points rest after : List CodePoint}

/-! ## §1. Blanks -/

/-- Blanks lead from one place to a later one. -/
def Gap (points rest : List CodePoint) : Prop :=
  ∃ blanks, AreBlanks blanks ∧ points = blanks ++ rest

theorem Gap.refl (points : List CodePoint) : Gap points points :=
  ⟨[], nofun, rfl⟩

theorem gap_skip (points : List CodePoint) : Gap points (skip points) :=
  ⟨_, fun _ hmem => List.all_eq_true.mp List.all_takeWhile _ hmem, List.takeWhile_append_dropWhile.symm⟩

theorem Gap.skip_eq (h : Gap points rest) : skip points = skip rest := by
  obtain ⟨blanks, hblanks, rfl⟩ := h
  exact skip_append hblanks rest

theorem Gap.skip_cons {point : CodePoint} (h : Gap points (point :: rest)) (hpoint : point.is isSpace = false) :
    skip points = point :: rest :=
  h.skip_eq.trans (skip_of_not_space hpoint rest)

theorem gap_of_skip_eq (h : skip points = rest) : Gap points rest :=
  h ▸ gap_skip points

theorem Gap.length_le (h : Gap points rest) : rest.length ≤ points.length := by
  obtain ⟨blanks, -, rfl⟩ := h
  rw [List.length_append]
  exact Nat.le_add_left _ _

/-! ## §2. Texts -/

/-- The inside of a text leads to what stands behind the closing quote, and is read from parts. -/
inductive Body : List CodePoint → List Part → List CodePoint → Prop
  | close {rest : List CodePoint} : Body (.char '"' :: rest) [] rest
  /-- A code point that stands for itself, which may be half of a surrogate pair. -/
  | kept {point : CodePoint} {points rest : List CodePoint} {parts : List Part} (hquote : point ≠ .char '"')
      (hback : point ≠ .char '\\') (hcontrol : ¬ point.toNat < 0x20) (h : Body points parts rest) :
      Body (point :: points) (.point point :: parts) rest
  | short {letter c : Char} {points rest : List CodePoint} {parts : List Part}
      (hletter : escaped? letter = some c) (h : Body points parts rest) :
      Body (.char '\\' :: .char letter :: points) (.point (.char c) :: parts) rest
  | unit {a b c d : CodePoint} {code : Nat} {points rest : List CodePoint} {parts : List Part}
      (hcode : unit? a b c d = some code) (h : Body points parts rest) :
      Body (.char '\\' :: .char 'u' :: a :: b :: c :: d :: points) (.unit code :: parts) rest

theorem Body.length_lt {parts : List Part} (h : Body points parts rest) : rest.length < points.length := by
  induction h with
  | close => exact Nat.lt_succ_self _
  | kept _ _ _ _ ih => exact Nat.lt_succ_of_lt ih
  | short _ _ ih =>
    simp only [List.length_cons]
    omega
  | unit _ _ ih =>
    simp only [List.length_cons]
    omega

theorem consPart_eq_ok_iff {part : Part} {reading : Reading (List Part)} {parts : List Part} :
    consPart part reading = .ok (parts, rest) ↔ ∃ more, parts = part :: more ∧ reading = .ok (more, rest) := by
  rcases reading with error | ⟨more, behind⟩
  · simp [consPart]
  · simp only [consPart, Except.ok.injEq, Prod.mk.injEq]
    constructor
    · rintro ⟨rfl, rfl⟩
      exact ⟨more, rfl, rfl, rfl⟩
    · rintro ⟨more', rfl, rfl, rfl⟩
      exact ⟨rfl, rfl⟩

theorem body_of_readParts {opening : List CodePoint} {parts : List Part}
    (h : readParts opening points = .ok (parts, rest)) : Body points parts rest := by
  -- along the reader: a case that does not fail is one of the ways in which a text goes on
  fun_induction readParts opening points generalizing parts with
  | case1 => cases h
  | case2 =>
    cases h
    exact .close
  | case3 => cases h
  | case4 a b c d next points code hcode ih =>
    obtain ⟨more, rfl, hmore⟩ := consPart_eq_ok_iff.mp h
    exact .unit hcode (ih hmore)
  | case5 => cases h
  | case6 => cases h
  | case7 point points _ _ c hc ih =>
    obtain ⟨more, rfl, hmore⟩ := consPart_eq_ok_iff.mp h
    cases point with
    | half offset => cases hc
    | char letter => exact .short hc (ih hmore)
  | case8 => cases h
  | case9 => cases h
  | case10 point points hquote hend _ hescape hcontrol ih =>
    obtain ⟨more, rfl, hmore⟩ := consPart_eq_ok_iff.mp h
    refine .kept hquote (fun hback => ?_) hcontrol (ih hmore)
    cases points with
    | nil => exact hend hback rfl
    | cons next points => exact hescape next points hback rfl

theorem readParts_of_body {parts : List Part} (h : Body points parts rest) (opening : List CodePoint) :
    readParts opening points = .ok (parts, rest) := by
  induction h with
  | close => rw [readParts]
  | kept hquote hback hcontrol _ ih =>
    rw [readParts, if_neg hcontrol, ih]
    · rfl
    all_goals simp [hquote, hback]
  | @short letter c points rest parts hletter _ ih =>
    have hunit : letter ≠ 'u' := by
      rintro rfl
      cases hletter
    have hescape : (CodePoint.char letter).char?.bind escaped? = some c := hletter
    rw [readParts, if_neg (by simp [hunit]), hescape]
    · show consPart _ (readParts opening points) = _
      rw [ih]
      rfl
    all_goals simp [hunit]
  | unit hcode h ih =>
    -- a digit is not the last character, since the closing quote follows
    obtain ⟨next, behind, rfl⟩ := List.exists_cons_of_length_pos (Nat.zero_lt_of_lt h.length_lt)
    rw [readParts, hcode]
    show consPart _ (readParts opening (next :: behind)) = _
    rw [ih]
    rfl

/-- **A text is read exactly if it stands there.** -/
theorem readText_quote_eq_ok_iff {text : Text} :
    readText (.char '"' :: points) = .ok (text, rest)
      ↔ ∃ parts, Body points parts rest ∧ text = .ofParts parts := by
  unfold readText
  rw [List.drop_one, List.tail_cons]
  constructor
  · intro h
    split at h
    · next parts behind hparts =>
      obtain ⟨rfl, rfl⟩ := Prod.mk.inj (Except.ok.inj h)
      exact ⟨parts, body_of_readParts hparts, rfl⟩
    · cases h
  · rintro ⟨parts, hbody, rfl⟩
    rw [readParts_of_body hbody]

/-! ## §3. Numbers -/

/-- Decimal digits. -/
def AreDigits (points : List CodePoint) : Prop :=
  ∀ point ∈ points, point.is Char.isDigit = true

/-- The whole part of a number begins with a zero only if it is a zero. -/
def IsWhole (whole : List CodePoint) : Prop :=
  whole = [.char '0'] ∨ AreDigits whole ∧ whole ≠ [] ∧ whole.head? ≠ some (.char '0')

def IsSign (sign : List CodePoint) : Prop :=
  sign = [] ∨ sign = [.char '-']

def IsFraction (fraction : List CodePoint) : Prop :=
  fraction = [] ∨ ∃ digits, AreDigits digits ∧ digits ≠ [] ∧ fraction = .char '.' :: digits

/-- The mark of an exponent, with its sign. -/
def IsMark (mark : List CodePoint) : Prop :=
  ∃ letter ∈ [CodePoint.char 'e', .char 'E'],
    mark = [letter] ∨ mark = [letter, .char '+'] ∨ mark = [letter, .char '-']

def IsExponent (exponent : List CodePoint) : Prop :=
  exponent = [] ∨ ∃ mark digits, IsMark mark ∧ AreDigits digits ∧ digits ≠ [] ∧ exponent = mark ++ digits

/-- What the digits of a whole part are worth. -/
def wholeValue (whole : List CodePoint) : Nat :=
  ofDigits 10 (whole.map fun point => point.toNat - '0'.toNat)

/-- A number: a whole one of limited length, or the double nearest to one with a fraction or an
exponent. -/
inductive Numeral : List CodePoint → Json → Prop
  | whole {sign whole : List CodePoint} (hsign : IsSign sign) (hwhole : IsWhole whole)
      (hlimit : whole.length ≤ maxDigits) :
      Numeral (sign ++ whole) (.int (signed (!sign.isEmpty) (wholeValue whole)))
  | double {sign whole fraction exponent : List CodePoint} {x : Binary64} (hsign : IsSign sign)
      (hwhole : IsWhole whole) (hfraction : IsFraction fraction) (hexponent : IsExponent exponent)
      (hmore : (fraction.isEmpty && exponent.isEmpty) = false)
      (hx : Binary64.read? (String.ofList ((sign ++ whole ++ fraction ++ exponent).filterMap CodePoint.char?))
        = some x) :
      Numeral (sign ++ whole ++ fraction ++ exponent) (.double x)

theorem areDigits_digitsOf (points : List CodePoint) : AreDigits (digitsOf points) :=
  fun _ hmem => List.all_eq_true.mp List.all_takeWhile _ hmem

theorem signOf_spec (points : List CodePoint) : IsSign (signOf points) ∧ signOf points <+: points := by
  unfold signOf
  split
  · exact ⟨.inr rfl, List.cons_prefix_cons.mpr ⟨rfl, List.nil_prefix⟩⟩
  · exact ⟨.inl rfl, List.nil_prefix⟩

theorem wholeOf_spec (points : List CodePoint) :
    (wholeOf points ≠ [] → IsWhole (wholeOf points)) ∧ wholeOf points <+: points := by
  unfold wholeOf
  split
  · exact ⟨fun _ => .inl rfl, List.cons_prefix_cons.mpr ⟨rfl, List.nil_prefix⟩⟩
  · next hzero =>
    refine ⟨fun hne => .inr ⟨areDigits_digitsOf points, hne, fun hhead => ?_⟩, List.takeWhile_prefix _⟩
    -- the first digit is the first character
    cases points with
    | nil => cases hhead
    | cons point points =>
      unfold digitsOf at hne hhead
      by_cases hpoint : point.is Char.isDigit = true
      · rw [List.takeWhile_cons_of_pos hpoint] at hhead
        exact hzero points (by rw [Option.some.inj hhead])
      · rw [List.takeWhile_cons_of_neg hpoint] at hne
        exact hne rfl

theorem fractionOf_spec (points : List CodePoint) :
    IsFraction (fractionOf points) ∧ fractionOf points <+: points := by
  unfold fractionOf
  split
  · next behind =>
    dsimp only
    split
    · exact ⟨.inl rfl, List.nil_prefix⟩
    · next hdigits =>
      refine ⟨.inr ⟨_, areDigits_digitsOf behind, fun hnone => hdigits (by rw [hnone]; rfl), rfl⟩, ?_⟩
      exact List.cons_prefix_cons.mpr ⟨rfl, List.takeWhile_prefix _⟩
  · exact ⟨.inl rfl, List.nil_prefix⟩

theorem exponentMark_spec (points : List CodePoint) :
    (exponentMark points ≠ [] → IsMark (exponentMark points)) ∧ exponentMark points <+: points := by
  unfold exponentMark
  split
  · next e s behind =>
    split
    · next hletter =>
      have hmem : e ∈ [CodePoint.char 'e', .char 'E'] := by
        cases e with
        | half offset => cases hletter
        | char c => simpa [CodePoint.is] using hletter
      split
      · next hsign =>
        refine ⟨fun _ => ⟨e, hmem, .inr ?_⟩, ?_⟩
        · cases s with
          | half offset => cases hsign
          | char c => simpa [CodePoint.is] using hsign
        · exact List.cons_prefix_cons.mpr ⟨rfl, List.cons_prefix_cons.mpr ⟨rfl, List.nil_prefix⟩⟩
      · exact ⟨fun _ => ⟨e, hmem, .inl rfl⟩, List.cons_prefix_cons.mpr ⟨rfl, List.nil_prefix⟩⟩
    · exact ⟨fun hne => absurd rfl hne, List.nil_prefix⟩
  · exact ⟨fun hne => absurd rfl hne, List.nil_prefix⟩

theorem exponentOf_spec (points : List CodePoint) :
    IsExponent (exponentOf points) ∧ exponentOf points <+: points := by
  obtain ⟨hmark, behind, hbehind⟩ := exponentMark_spec points
  unfold exponentOf
  dsimp only
  generalize exponentMark points = mark at *
  subst hbehind
  rw [List.drop_left]
  split
  · exact ⟨.inl rfl, List.nil_prefix⟩
  · next hboth =>
    rw [Bool.or_eq_true, not_or, List.isEmpty_iff, List.isEmpty_iff] at hboth
    refine ⟨.inr ⟨_, _, hmark hboth.1, areDigits_digitsOf _, hboth.2, rfl⟩, ?_⟩
    rw [List.prefix_append_right_inj]
    exact List.takeWhile_prefix _

/-- **What is read as a number is one.** -/
theorem numeral_of_readNumber {value : Json} (h : readNumber points = .ok (value, rest)) :
    ∃ numeral, Numeral numeral value ∧ points = numeral ++ rest := by
  -- each part is what the rest begins with behind the part before it
  obtain ⟨hsign, hsign_prefix⟩ := signOf_spec points
  obtain ⟨hwhole, hwhole_prefix⟩ := wholeOf_spec (points.drop (signOf points).length)
  unfold readNumber at h
  dsimp only at h
  generalize signOf points = sign at *
  obtain ⟨afterSign, rfl⟩ := hsign_prefix
  rw [List.drop_left] at *
  generalize wholeOf afterSign = whole at *
  obtain ⟨afterWhole, rfl⟩ := hwhole_prefix
  rw [List.drop_left] at *
  obtain ⟨hfraction, hfraction_prefix⟩ := fractionOf_spec afterWhole
  generalize fractionOf afterWhole = fraction at *
  obtain ⟨afterFraction, rfl⟩ := hfraction_prefix
  rw [List.drop_left] at *
  obtain ⟨hexponent, hexponent_prefix⟩ := exponentOf_spec afterFraction
  generalize exponentOf afterFraction = exponent at *
  obtain ⟨behind, rfl⟩ := hexponent_prefix
  rw [List.drop_left] at *
  split at h
  · cases h
  next hne =>
  replace hwhole := hwhole (by rwa [List.isEmpty_iff] at hne)
  split at h
  · next hexact =>
    rw [Bool.and_eq_true, List.isEmpty_iff, List.isEmpty_iff] at hexact
    obtain ⟨rfl, rfl⟩ := hexact
    split at h
    · next hlimit =>
      obtain ⟨rfl, rfl⟩ := Prod.mk.inj (Except.ok.inj h)
      exact ⟨_, .whole hsign hwhole hlimit, by simp⟩
    · cases h
  · next hmore =>
    split at h
    · next x hx =>
      obtain ⟨rfl, rfl⟩ := Prod.mk.inj (Except.ok.inj h)
      exact ⟨_, .double hsign hwhole hfraction hexponent (Bool.eq_false_iff.mpr hmore) hx, by simp⟩
    · cases h

/-- No character of a class stands in front. -/
def HeadFree (p : Char → Bool) (points : List CodePoint) : Prop :=
  ∀ point, points.head? = some point → point.is p = false

/-- The characters that go on with a number. -/
def goesOn (c : Char) : Bool :=
  c.isDigit || c == '.' || c == 'e' || c == 'E'

theorem HeadFree.imp {p q : Char → Bool} (h : HeadFree p points) (hpq : ∀ c, q c = true → p c = true) :
    HeadFree q points := by
  intro point hhead
  have hfree := h point hhead
  cases point with
  | half offset => rfl
  | char c => exact Bool.eq_false_iff.mpr fun hq => Bool.eq_false_iff.mp hfree (hpq c hq)

theorem HeadFree.cons {p : Char → Bool} {point : CodePoint} (h : point.is p = false) (points : List CodePoint) :
    HeadFree p (point :: points) := by
  rintro _ ⟨⟩
  exact h

theorem HeadFree.digits (h : HeadFree goesOn points) : HeadFree Char.isDigit points :=
  h.imp fun c hc => by simp [goesOn, hc]

theorem digitsOf_append {digits : List CodePoint} (hdigits : AreDigits digits)
    (hfree : HeadFree Char.isDigit rest) :
    digitsOf (digits ++ rest) = digits := by
  unfold digitsOf
  rw [List.takeWhile_append_of_pos hdigits]
  cases rest with
  | nil => rw [List.takeWhile_nil, List.append_nil]
  | cons point rest =>
    rw [List.takeWhile_cons_of_neg (by rw [hfree point rfl]; exact Bool.false_ne_true), List.append_nil]

/-- A whole part begins with a digit. -/
theorem IsWhole.exists_cons {whole : List CodePoint} (h : IsWhole whole) :
    ∃ c more, whole = .char c :: more ∧ c.isDigit = true := by
  rcases h with rfl | ⟨hdigits, hne, -⟩
  · exact ⟨'0', [], rfl, rfl⟩
  · obtain ⟨point, more, rfl⟩ := List.exists_cons_of_ne_nil hne
    have hdigit := hdigits point List.mem_cons_self
    cases point with
    | half offset => cases hdigit
    | char c => exact ⟨c, more, rfl, hdigit⟩

theorem signOf_append {sign : List CodePoint} (hsign : IsSign sign) {c : Char} (hc : c.isDigit = true)
    (rest : List CodePoint) : signOf (sign ++ .char c :: rest) = sign := by
  rcases hsign with rfl | rfl
  · have hminus : c ≠ '-' := by
      rintro rfl
      cases hc
    rw [List.nil_append, signOf]
    simp [hminus]
  · rfl

theorem wholeOf_append {whole : List CodePoint} (hwhole : IsWhole whole) (hfree : HeadFree Char.isDigit rest) :
    wholeOf (whole ++ rest) = whole := by
  rcases hwhole with rfl | ⟨hdigits, hne, hzero⟩
  · rfl
  · obtain ⟨point, more, rfl⟩ := List.exists_cons_of_ne_nil hne
    rw [List.cons_append, wholeOf, ← List.cons_append, digitsOf_append hdigits hfree]
    intro behind hbehind
    exact hzero (by rw [(List.cons.inj hbehind).1]; rfl)

theorem fractionOf_append {fraction : List CodePoint} (hfraction : IsFraction fraction)
    (hfree : HeadFree (fun c => c.isDigit || c == '.') rest) : fractionOf (fraction ++ rest) = fraction := by
  rcases hfraction with rfl | ⟨digits, hdigits, hne, rfl⟩
  · rw [List.nil_append, fractionOf]
    rintro behind rfl
    cases hfree _ rfl
  · rw [List.cons_append, fractionOf, digitsOf_append hdigits (hfree.imp fun c hc => by simp [hc]),
      if_neg (by rwa [List.isEmpty_iff])]

theorem exponentMark_append {mark : List CodePoint} (hmark : IsMark mark) {c : Char} (hc : c.isDigit = true)
    (rest : List CodePoint) : exponentMark (mark ++ .char c :: rest) = mark := by
  have hplain : (c == '+' || c == '-') = false := by
    rw [Bool.or_eq_false_iff, beq_eq_false_iff_ne, beq_eq_false_iff_ne]
    constructor
    · rintro rfl
      cases hc
    · rintro rfl
      cases hc
  obtain ⟨letter, hletter, hmark⟩ := hmark
  have his : letter.is (fun c => c == 'e' || c == 'E') = true := by
    simp only [List.mem_cons, List.not_mem_nil, or_false] at hletter
    rcases hletter with rfl | rfl <;> rfl
  rcases hmark with rfl | rfl | rfl
  · show (if letter.is _ then _ else _) = _
    rw [if_pos his, if_neg (by simpa [CodePoint.is] using hplain)]
  all_goals
    show (if letter.is _ then _ else _) = _
    rw [if_pos his]
    rfl

theorem exponentOf_append {exponent : List CodePoint} (hexponent : IsExponent exponent)
    (hfree : HeadFree goesOn rest) : exponentOf (exponent ++ rest) = exponent := by
  rcases hexponent with rfl | ⟨mark, digits, hmark, hdigits, hne, rfl⟩
  · have hnone : exponentMark rest = [] := by
      unfold exponentMark
      split
      · next e s behind =>
        rw [if_neg]
        have hhead : HeadFree (fun c => c == 'e' || c == 'E') (e :: s :: behind) :=
          hfree.imp fun c hc => by
            simp only [goesOn, Bool.or_eq_true] at hc ⊢
            tauto
        rw [hhead e rfl]
        exact Bool.false_ne_true
      · rfl
    rw [List.nil_append, exponentOf, hnone]
    rfl
  · obtain ⟨point, more, rfl⟩ := List.exists_cons_of_ne_nil hne
    have hdigit := hdigits point List.mem_cons_self
    cases point with
    | half offset => cases hdigit
    | char c =>
      have hboth : (mark.isEmpty || (CodePoint.char c :: more).isEmpty) = false := by
        obtain ⟨letter, -, rfl | rfl | rfl⟩ := hmark <;> rfl
      rw [List.append_assoc, exponentOf, List.cons_append, exponentMark_append hmark hdigit,
        List.drop_left, ← List.cons_append, digitsOf_append hdigits hfree.digits, hboth]
      rfl

theorem HeadFree.append {p : Char → Bool} (hpoints : HeadFree p points) (hrest : HeadFree p rest) :
    HeadFree p (points ++ rest) := by
  cases points with
  | nil => exact hrest
  | cons point points => exact .cons (hpoints point rfl) _

theorem IsExponent.headFree {exponent : List CodePoint} (h : IsExponent exponent) :
    HeadFree (fun c => c.isDigit || c == '.') exponent := by
  rcases h with rfl | ⟨mark, digits, ⟨letter, hletter, hmark⟩, -, -, rfl⟩
  · exact nofun
  · have hhead : letter.is (fun c => c.isDigit || c == '.') = false := by
      simp only [List.mem_cons, List.not_mem_nil, or_false] at hletter
      rcases hletter with rfl | rfl <;> rfl
    rcases hmark with rfl | rfl | rfl <;> exact .cons hhead _

theorem IsFraction.headFree {fraction : List CodePoint} (h : IsFraction fraction) :
    HeadFree Char.isDigit fraction := by
  rcases h with rfl | ⟨digits, -, -, rfl⟩
  · exact nofun
  · exact .cons rfl _

section Parts

variable {sign whole fraction exponent : List CodePoint}

/-- A number falls into the parts that it is written in. -/
theorem parts_of_append (hsign : IsSign sign) (hwhole : IsWhole whole) (hfraction : IsFraction fraction)
    (hexponent : IsExponent exponent) (hfree : HeadFree goesOn rest) :
    signOf (sign ++ (whole ++ (fraction ++ (exponent ++ rest)))) = sign
      ∧ wholeOf (whole ++ (fraction ++ (exponent ++ rest))) = whole
      ∧ fractionOf (fraction ++ (exponent ++ rest)) = fraction
      ∧ exponentOf (exponent ++ rest) = exponent
      ∧ whole.isEmpty = false := by
  obtain ⟨c, more, hcons, hc⟩ := hwhole.exists_cons
  have hplain : HeadFree (fun c => c.isDigit || c == '.') (exponent ++ rest) :=
    hexponent.headFree.append (hfree.imp fun c hc => by
      simp only [goesOn, Bool.or_eq_true] at hc ⊢
      tauto)
  refine ⟨?_, wholeOf_append hwhole (hfraction.headFree.append (hplain.imp fun c hc => by simp [hc])),
    fractionOf_append hfraction hplain, exponentOf_append hexponent hfree, by rw [hcons]; rfl⟩
  rw [hcons, List.cons_append]
  exact signOf_append hsign hc _

/-- Without a fraction and an exponent, a number is exact. -/
theorem readNumber_whole (hsign : IsSign sign) (hwhole : IsWhole whole) (hlimit : whole.length ≤ maxDigits)
    (hfree : HeadFree goesOn rest) :
    readNumber (sign ++ whole ++ rest) = .ok (.int (signed (!sign.isEmpty) (wholeValue whole)), rest) := by
  obtain ⟨hsigned, hwholes, hfraction, hexponent, hne⟩ :=
    parts_of_append hsign hwhole (.inl rfl) (.inl rfl) hfree
  rw [List.nil_append, List.nil_append] at hsigned hwholes hfraction
  rw [List.nil_append] at hexponent
  unfold readNumber
  simp only [List.append_assoc, hsigned, List.drop_left, hwholes, hne, hfraction, hexponent, List.length_nil,
    List.drop_zero, List.isEmpty_nil, Bool.and_self, if_true, hlimit, Bool.false_eq_true, if_false, wholeValue]

end Parts

/-- **A number is read as what it is**, if nothing behind it goes on with it. -/
theorem readNumber_append {numeral : List CodePoint} {value : Json} (h : Numeral numeral value)
    (hfree : HeadFree goesOn rest) : readNumber (numeral ++ rest) = .ok (value, rest) := by
  cases h with
  | whole hsign hwhole hlimit => exact readNumber_whole hsign hwhole hlimit hfree
  | double hsign hwhole hfraction hexponent hmore hx =>
    obtain ⟨hsigned, hwholes, hfractions, hexponents, hne⟩ :=
      parts_of_append hsign hwhole hfraction hexponent hfree
    unfold readNumber
    simp only [List.append_assoc] at hx ⊢
    simp only [hsigned, List.drop_left, hwholes, hne, hfractions, hexponents, hmore, hx, Bool.false_eq_true,
      if_false]

/-! ## §4. Values -/

/-- A word, a number or a text. -/
inductive Scalar : List CodePoint → Json → List CodePoint → Prop
  | word {entry : Text × Json} {rest : List CodePoint} (hentry : entry ∈ words) :
      Scalar (entry.1.points ++ rest) entry.2 rest
  | number {numeral rest : List CodePoint} {value : Json} (hnumeral : Numeral numeral value) :
      Scalar (numeral ++ rest) value rest
  | text {points rest : List CodePoint} {parts : List Part} (hbody : Body points parts rest) :
      Scalar (.char '"' :: points) (.text (.ofParts parts)) rest

/-- Items with commas between them, from the first one up to and with a closing mark. -/
inductive Series {α : Type} (closing : CodePoint) (P : List CodePoint → α → List CodePoint → Prop) :
    List CodePoint → List α → List CodePoint → Prop
  | last {points behind rest : List CodePoint} {item : α} (hitem : P points item behind)
      (hclose : Gap behind (closing :: rest)) : Series closing P points [item] rest
  | more {points behind next start rest : List CodePoint} {item : α} {items : List α}
      (hitem : P points item behind) (hcomma : Gap behind (.char ',' :: next)) (hgap : Gap next start)
      (h : Series closing P start items rest) : Series closing P points (item :: items) rest

section Collections

variable (P : List CodePoint → Json → List CodePoint → Prop)

/-- A field of an object: a name, a colon and a value. -/
inductive Field : List CodePoint → Text × Json → List CodePoint → Prop
  | intro {points behind next start rest : List CodePoint} {parts : List Part} {value : Json}
      (hname : Body points parts behind) (hcolon : Gap behind (.char ':' :: next)) (hgap : Gap next start)
      (hvalue : P start value rest) : Field (.char '"' :: points) (.ofParts parts, value) rest

/-- A value whose items or fields are given.  A repeated name keeps its first place and its last
value. -/
inductive Level : List CodePoint → Json → List CodePoint → Prop
  | scalar {points rest : List CodePoint} {value : Json} (h : Scalar points value rest) :
      Level points value rest
  | emptyArray {points rest : List CodePoint} (hclose : Gap points (.char ']' :: rest)) :
      Level (.char '[' :: points) (.array []) rest
  | array {points start rest : List CodePoint} {items : List Json} (hgap : Gap points start)
      (h : Series (.char ']') P start items rest) : Level (.char '[' :: points) (.array items) rest
  | emptyObject {points rest : List CodePoint} (hclose : Gap points (.char '\x7d' :: rest)) :
      Level (.char '\x7b' :: points) (.object []) rest
  | object {points start rest : List CodePoint} {fields : Fields} (hgap : Gap points start)
      (h : Series (.char '\x7d') (Field P) start fields rest) :
      Level (.char '\x7b' :: points) (.object (Table.ofPairs fields)) rest

end Collections

/-- A value in which so many arrays and objects may lie inside one another. -/
def Denotes : Nat → List CodePoint → Json → List CodePoint → Prop
  | 0 => Scalar
  | levels + 1 => Level (Denotes levels)

/-! ## §5. The first character of a value -/

/-- The characters that a word or a number begins with. -/
def startsPlain (c : Char) : Bool :=
  c.isDigit || ['-', 'n', 't', 'f', 'N', 'I'].contains c

/-- The characters that a value begins with. -/
def startsValue (c : Char) : Bool :=
  startsPlain c || ['"', '[', '\x7b'].contains c

/-- A character of a class stands in front. -/
def Starts (p : Char → Bool) (points : List CodePoint) : Prop :=
  ∃ c more, points = .char c :: more ∧ p c = true

theorem Starts.append {p : Char → Bool} (h : Starts p points) (rest : List CodePoint) :
    Starts p (points ++ rest) := by
  obtain ⟨c, more, rfl, hc⟩ := h
  exact ⟨c, more ++ rest, rfl, hc⟩

theorem Starts.length_pos {p : Char → Bool} (h : Starts p points) : 0 < points.length := by
  obtain ⟨c, more, rfl, -⟩ := h
  exact Nat.succ_pos _

theorem Starts.skip_eq (h : Starts startsValue points) : skip points = points := by
  obtain ⟨c, more, rfl, hc⟩ := h
  refine skip_of_not_space (Bool.eq_false_iff.mpr fun hspace => ?_) more
  simp only [CodePoint.is, isSpace, Bool.or_eq_true, beq_iff_eq] at hspace
  rcases hspace with ((rfl | rfl) | rfl) | rfl <;> cases hc

theorem Starts.ne_cons {point : CodePoint} {p : Char → Bool} (h : Starts p points)
    (hpoint : point.is p = false) :
    ∀ rest, points ≠ point :: rest := by
  obtain ⟨c, more, rfl, hc⟩ := h
  rintro rest ⟨⟩
  exact Bool.false_ne_true (hpoint.symm.trans hc)

theorem words_spec : ∀ entry ∈ words,
    (∃ point ∈ entry.1.points.head?, point.is startsPlain = true) ∧ 2 ≤ entry.1.points.length
      ∧ ∀ point ∈ entry.1.points, point.is Char.isDigit = false := by
  decide

theorem starts_word {entry : Text × Json} (h : entry ∈ words) : Starts startsPlain entry.1.points := by
  obtain ⟨⟨point, hpoint, hplain⟩, -⟩ := words_spec entry h
  obtain ⟨more, hmore⟩ := List.head?_eq_some_iff.mp hpoint
  cases point with
  | half offset => cases hplain
  | char c => exact ⟨c, more, hmore, hplain⟩

/-- One of the first two characters of a number is a digit, which is in no word. -/
theorem Numeral.starts {numeral : List CodePoint} {value : Json} (h : Numeral numeral value) :
    Starts startsPlain numeral ∧ ∃ point ∈ numeral.take 2, point.is Char.isDigit = true := by
  have hboth : ∀ {sign whole : List CodePoint}, IsSign sign → IsWhole whole → ∀ more,
      Starts startsPlain (sign ++ whole ++ more)
        ∧ ∃ point ∈ (sign ++ whole ++ more).take 2, point.is Char.isDigit = true := by
    rintro sign whole (rfl | rfl) hwhole more
    · obtain ⟨c, digits, rfl, hc⟩ := hwhole.exists_cons
      exact ⟨⟨c, digits ++ more, rfl, by simp [startsPlain, hc]⟩, .char c, List.mem_cons_self, hc⟩
    · obtain ⟨c, digits, rfl, hc⟩ := hwhole.exists_cons
      exact ⟨⟨'-', .char c :: (digits ++ more), rfl, rfl⟩, .char c,
        List.mem_cons_of_mem _ List.mem_cons_self, hc⟩
  cases h with
  | whole hsign hwhole _ => simpa using hboth hsign hwhole []
  | double hsign hwhole _ _ _ _ => simpa using hboth hsign hwhole _

theorem Scalar.starts {value : Json} (h : Scalar points value rest) :
    Starts startsPlain points ∨ ∃ more, points = .char '"' :: more := by
  cases h with
  | word hentry => exact .inl ((starts_word hentry).append _)
  | number hnumeral => exact .inl (hnumeral.starts.1.append _)
  | text hbody => exact .inr ⟨_, rfl⟩

theorem Starts.imp {p q : Char → Bool} (h : Starts p points) (hpq : ∀ c, p c = true → q c = true) :
    Starts q points := by
  obtain ⟨c, more, rfl, hc⟩ := h
  exact ⟨c, more, rfl, hpq c hc⟩

theorem Scalar.starts_value {value : Json} (h : Scalar points value rest) : Starts startsValue points := by
  rcases h.starts with hplain | ⟨more, rfl⟩
  · exact hplain.imp fun c hc => by simp [startsValue, hc]
  · exact ⟨_, more, rfl, rfl⟩

/-! ## §6. Reading what is denoted -/

theorem readPlain_word {entry : Text × Json} (h : entry ∈ words) (rest : List CodePoint) :
    readPlain (entry.1.points ++ rest) = .ok (entry.2, rest) := by
  simp only [words, List.mem_cons, List.not_mem_nil, or_false] at h
  rcases h with rfl | rfl | rfl | rfl | rfl | rfl <;> rfl

theorem readPlain_number {numeral : List CodePoint} {value : Json} (h : Numeral numeral value)
    (hfree : HeadFree goesOn rest) : readPlain (numeral ++ rest) = .ok (value, rest) := by
  have hnone : words.find? (fun entry => entry.1.points.isPrefixOf (numeral ++ rest)) = none := by
    rw [List.find?_eq_none]
    intro entry hentry hprefix
    obtain ⟨-, hlength, hletters⟩ := words_spec entry hentry
    obtain ⟨behind, hbehind⟩ := List.isPrefixOf_iff_prefix.mp hprefix
    obtain ⟨-, point, hpoint, hdigit⟩ := h.starts
    -- the digit would be one of the first two characters of the word
    have hmem : point ∈ (numeral ++ rest).take 2 := by
      rw [List.take_append]
      exact List.mem_append_left _ hpoint
    rw [← hbehind, List.take_append_of_le_length hlength] at hmem
    exact Bool.false_ne_true ((hletters point (List.mem_of_mem_take hmem)).symm.trans hdigit)
  unfold readPlain
  rw [hnone]
  exact readNumber_append h hfree

theorem readValue_plain (h : Starts startsPlain points) (levels fuel : Nat) :
    readValue levels (fuel + 1) points = readPlain points := by
  obtain ⟨c, more, rfl, hc⟩ := h
  rw [readValue]
  · rintro tail ⟨⟩
    cases hc
  · rintro tail ⟨⟩
    cases hc
  · rintro tail ⟨⟩
    cases hc
  · rintro tail levels ⟨⟩
    cases hc
  · rintro tail levels ⟨⟩
    cases hc

theorem readValue_of_scalar {value : Json} (h : Scalar points value rest) (hfree : HeadFree goesOn rest)
    (levels fuel : Nat) : readValue levels (fuel + 1) points = .ok (value, rest) := by
  cases h with
  | word hentry => rw [readValue_plain ((starts_word hentry).append _), readPlain_word hentry]
  | number hnumeral => rw [readValue_plain (hnumeral.starts.1.append _), readPlain_number hnumeral hfree]
  | text hbody => rw [readValue, readText_quote_eq_ok_iff.mpr ⟨_, hbody, rfl⟩]

/-- Nothing that is a blank goes on with a number. -/
theorem Gap.headFree (h : Gap points rest) (hfree : HeadFree goesOn rest) : HeadFree goesOn points := by
  obtain ⟨blanks, hblanks, rfl⟩ := h
  refine HeadFree.append (fun point hhead => ?_) hfree
  have hspace := hblanks point (List.mem_of_mem_head? hhead)
  cases point with
  | half offset => rfl
  | char c =>
    simp only [CodePoint.is, isSpace, Bool.or_eq_true, beq_iff_eq] at hspace
    rcases hspace with ((rfl | rfl) | rfl) | rfl <;> rfl

/-- What is derived is a value that the reader reads in front of anything that does not go on with a
number. -/
structure Readable (levels : Nat) (P : List CodePoint → Json → List CodePoint → Prop) : Prop where
  starts : ∀ {points rest value}, P points value rest → Starts startsValue points
  shorter : ∀ {points rest value}, P points value rest → rest.length < points.length
  read : ∀ {points rest value}, P points value rest → HeadFree goesOn rest → ∀ fuel, 2 * points.length ≤ fuel →
    readValue levels fuel points = .ok (value, rest)

section Series

variable {α : Type} {closing : CodePoint} {P : List CodePoint → α → List CodePoint → Prop} {items : List α}

/-- A series begins as its first item does. -/
theorem Series.exists_first (h : Series closing P points items rest) :
    ∃ item behind, P points item behind := by
  cases h with
  | last hitem _ => exact ⟨_, _, hitem⟩
  | more hitem _ _ _ => exact ⟨_, _, hitem⟩

theorem Series.shorter (hP : ∀ {points rest item}, P points item rest → rest.length < points.length)
    (h : Series closing P points items rest) : rest.length < points.length := by
  induction h with
  | last hitem hclose =>
    have := hP hitem
    have := hclose.length_le
    rw [List.length_cons] at this
    omega
  | more hitem hcomma hgap _ ih =>
    have := hP hitem
    have := hcomma.length_le
    have := hgap.length_le
    rw [List.length_cons] at *
    omega

end Series

section Collections

variable {P : List CodePoint → Json → List CodePoint → Prop} {levels : Nat}

theorem Series.read_items {items : List Json} (hP : Readable levels P)
    (h : Series (.char ']') P points items rest) {fuel : Nat} (hfuel : 2 * points.length + 1 ≤ fuel) :
    readItems levels fuel points = .ok (items, rest) := by
  -- the reader takes one step for the series and one for its first item, which is at the same place
  induction h generalizing fuel with
  | last hitem hclose =>
    obtain ⟨fuel, rfl⟩ : ∃ less, fuel = less + 1 := ⟨fuel - 1, by omega⟩
    rw [readItems, hP.read hitem (hclose.headFree (.cons rfl _)) fuel (by omega)]
    simp only [hclose.skip_cons rfl]
  | more hitem hcomma hgap hitems ih =>
    obtain ⟨fuel, rfl⟩ : ∃ less, fuel = less + 1 := ⟨fuel - 1, by omega⟩
    obtain ⟨first, behind, hfirst⟩ := hitems.exists_first
    have hshort := hP.shorter hitem
    have hbehind := hcomma.length_le
    have hnext := hgap.length_le
    rw [List.length_cons] at hbehind
    rw [readItems, hP.read hitem (hcomma.headFree (.cons rfl _)) fuel (by omega)]
    simp only [hcomma.skip_cons rfl, hgap.skip_eq, (hP.starts hfirst).skip_eq, ih (show _ ≤ fuel by omega)]

theorem Field.exists_quote {field : Text × Json} (h : Field P points field rest) :
    ∃ more, points = .char '"' :: more := by
  cases h
  exact ⟨_, rfl⟩

theorem Field.shorter {field : Text × Json} (hP : Readable levels P) (h : Field P points field rest) :
    rest.length < points.length := by
  cases h with
  | intro hname hcolon hgap hvalue =>
    have := hname.length_lt
    have := hcolon.length_le
    have := hgap.length_le
    have := hP.shorter hvalue
    rw [List.length_cons] at *
    omega

/-- A field is read, and then what stands behind it. -/
theorem Field.read {field : Text × Json} (hP : Readable levels P) (h : Field P points field rest)
    (hfree : HeadFree goesOn rest) {fuel : Nat} (hfuel : 2 * points.length ≤ fuel) :
    readFields levels (fuel + 1) points = readBehind levels fuel field rest := by
  cases h with
  | intro hname hcolon hgap hvalue =>
    have hnext := hcolon.length_le
    have hstart := hgap.length_le
    have hbehind := hname.length_lt
    rw [List.length_cons] at hnext hfuel
    have hskip := hgap.skip_eq.trans (hP.starts hvalue).skip_eq
    rw [readFields, readText_quote_eq_ok_iff.mpr ⟨_, hname, rfl⟩]
    simp only [hcolon.skip_cons rfl, hskip, hP.read hvalue hfree fuel (by omega)]
    rfl

theorem Series.read_fields {fields : Fields} (hP : Readable levels P)
    (h : Series (.char '\x7d') (Field P) points fields rest) {fuel : Nat}
    (hfuel : 2 * points.length + 1 ≤ fuel) :
    readFields levels fuel points = .ok (fields, rest) := by
  induction h generalizing fuel with
  | last hfield hclose =>
    obtain ⟨fuel, rfl⟩ : ∃ less, fuel = less + 1 := ⟨fuel - 1, by omega⟩
    rw [hfield.read hP (hclose.headFree (.cons rfl _)) (by omega)]
    exact readBehind_of_brace (hclose.skip_cons rfl)
  | more hfield hcomma hgap hfields ih =>
    obtain ⟨fuel, rfl⟩ : ∃ less, fuel = less + 1 := ⟨fuel - 1, by omega⟩
    have hshort := hfield.shorter hP
    have hbehind := hcomma.length_le
    have hnext := hgap.length_le
    rw [List.length_cons] at hbehind
    rw [hfield.read hP (hcomma.headFree (.cons rfl _)) (by omega)]
    obtain ⟨first, behind, hfirst⟩ := hfields.exists_first
    obtain ⟨more, rfl⟩ := hfirst.exists_quote
    exact readBehind_of_comma (hcomma.skip_cons rfl) (by rw [hgap.skip_cons rfl, ih (show _ ≤ fuel by omega)])

theorem Level.starts {value : Json} (h : Level P points value rest) : Starts startsValue points := by
  cases h with
  | scalar h => exact h.starts_value
  | emptyArray | array => exact ⟨_, _, rfl, rfl⟩
  | emptyObject | object => exact ⟨_, _, rfl, rfl⟩

theorem Scalar.shorter {value : Json} (h : Scalar points value rest) : rest.length < points.length := by
  cases h with
  | word hentry =>
    have := (starts_word hentry).length_pos
    rw [List.length_append]
    omega
  | number hnumeral =>
    have := hnumeral.starts.1.length_pos
    rw [List.length_append]
    omega
  | text hbody => exact Nat.lt_succ_of_lt hbody.length_lt

theorem Level.shorter {value : Json} (hP : Readable levels P) (h : Level P points value rest) :
    rest.length < points.length := by
  cases h with
  | scalar h => exact h.shorter
  | emptyArray hclose | emptyObject hclose =>
    have := hclose.length_le
    rw [List.length_cons] at *
    omega
  | array hgap h =>
    have := hgap.length_le
    have := h.shorter hP.shorter
    rw [List.length_cons]
    omega
  | object hgap h =>
    have := hgap.length_le
    have := h.shorter (Field.shorter hP)
    rw [List.length_cons]
    omega

theorem Level.read {value : Json} (hP : Readable levels P) (h : Level P points value rest)
    (hfree : HeadFree goesOn rest) {fuel : Nat} (hfuel : 2 * points.length ≤ fuel) :
    readValue (levels + 1) fuel points = .ok (value, rest) := by
  have hpos := h.starts.length_pos
  obtain ⟨fuel, rfl⟩ : ∃ less, fuel = less + 1 := ⟨fuel - 1, by omega⟩
  cases h with
  | scalar h => exact readValue_of_scalar h hfree _ _
  | emptyArray hclose =>
    rw [readValue]
    simp only [hclose.skip_cons rfl]
  | emptyObject hclose =>
    rw [readValue]
    simp only [hclose.skip_cons rfl]
  | array hgap h =>
    have hlength := hgap.length_le
    have hread : readItems levels fuel _ = .ok (_, rest) :=
      h.read_items hP (by rw [List.length_cons] at hfuel; omega)
    -- the first item does not begin with the closing bracket
    obtain ⟨first, behind, hfirst⟩ := h.exists_first
    have hstarts := hP.starts hfirst
    rw [readValue, hgap.skip_eq, hstarts.skip_eq]
    split
    · next hclose => exact absurd rfl (hstarts.ne_cons rfl _)
    · rw [hread]
  | object hgap h =>
    have hlength := hgap.length_le
    have hread : readFields levels fuel _ = .ok (_, rest) :=
      h.read_fields hP (by rw [List.length_cons] at hfuel; omega)
    obtain ⟨first, behind, hfirst⟩ := h.exists_first
    obtain ⟨more, rfl⟩ := hfirst.exists_quote
    rw [readValue, hgap.skip_cons rfl]
    split
    · next hclose => cases hclose
    · rw [hread]

theorem readable_denotes : ∀ levels, Readable levels (Denotes levels)
  | 0 => {
    starts := Scalar.starts_value
    shorter := Scalar.shorter
    read := fun h hfree fuel hfuel => by
      have hpos := (Scalar.starts_value h).length_pos
      obtain ⟨fuel, rfl⟩ : ∃ less, fuel = less + 1 := ⟨fuel - 1, by omega⟩
      exact readValue_of_scalar h hfree _ _ }
  | levels + 1 => {
    starts := Level.starts
    shorter := Level.shorter (readable_denotes levels)
    read := fun h hfree _ hfuel => h.read (readable_denotes levels) hfree hfuel }

end Collections

end LivePreview.Json
