/-
  LivePreview.Proofs.Number.Integer
  ─────────────────────────────────
  **Integer literals and what they denote.**

  An integer literal is written in one of four bases, with single low lines between its
  digits (`IsInteger`).  A reader of literals finds the number that it denotes, if it is
  not a decimal one with too many digits (`readLiteral?_eq`).  A reader of numbers with a
  point or an exponent takes only decimal literals: the mark of another base stops it
  behind the zero in front (`read?_based`).

  The decimal text of a number is a literal that denotes it (`isInteger_toString`).
-/
import Mathlib.Data.List.TakeWhile
import LivePreview.Number.Shortest

namespace LivePreview.Number

open LivePreview.Text

/-! ## §1. Digits -/

/-- Digits of a base, with low lines only between two of them and never two in a row, and the number
that they denote. -/
inductive DigitsOf (base : Nat) : List Char → Nat → Prop where
  | single {c : Char} {d : Nat} (hd : digitInBase? base c = some d) : DigitsOf base [c] d
  | next {cs : List Char} {value d : Nat} {c : Char} (h : DigitsOf base cs value)
    (hd : digitInBase? base c = some d) : DigitsOf base (cs ++ [c]) (value * base + d)
  | apart {cs : List Char} {value d : Nat} {c : Char} (h : DigitsOf base cs value)
    (hd : digitInBase? base c = some d) : DigitsOf base (cs ++ ['_', c]) (value * base + d)

/-- The marks of the bases other than ten, which stand behind a zero. -/
def baseMarks : List (Char × Nat) :=
  [('x', 16), ('X', 16), ('o', 8), ('O', 8), ('b', 2), ('B', 2)]

/-- The characters are an integer literal, which denotes a number.  No decimal literal but zero itself
starts with a zero. -/
inductive IsInteger : List Char → Nat → Prop where
  | decimal {cs : List Char} {value : Nat} (h : DigitsOf 10 cs value)
    (hzero : cs.head? = some '0' → cs = ['0']) : IsInteger cs value
  | based {mark : Char} {base value : Nat} {cs : List Char} (hmark : (mark, base) ∈ baseMarks)
    (h : DigitsOf base cs value) : IsInteger ('0' :: mark :: cs) value

/-- The characters that numbers are written with. -/
def isNumberChar (c : Char) : Bool :=
  c.isAlphanum || c == '_'

section Digits

variable {base : Nat} {c : Char} {d value : Nat} {cs : List Char}

theorem isAlphanum_of_digitInBase? (hd : digitInBase? base c = some d) : c.isAlphanum = true := by
  obtain ⟨hvalue, -⟩ := Option.filter_eq_some_iff.mp hd
  change (c.isUpper || c.isLower || c.isDigit) = true
  split at hvalue
  · next h => simp [h]
  · split at hvalue
    · next h => simp [h]
    · split at hvalue
      · next h => simp [h]
      · cases hvalue

theorem ne_lowLine_of_digitInBase? (hd : digitInBase? base c = some d) : c ≠ '_' := by
  rintro rfl
  exact absurd (isAlphanum_of_digitInBase? hd) (by decide)

/-- Digits start with one. -/
theorem DigitsOf.exists_cons (h : DigitsOf base cs value) :
    ∃ first rest d, cs = first :: rest ∧ digitInBase? base first = some d := by
  induction h with
  | single hd => exact ⟨_, _, _, rfl, hd⟩
  | next _ _ ih | apart _ _ ih =>
    obtain ⟨first, rest, d, rfl, hd⟩ := ih
    exact ⟨first, _, d, rfl, hd⟩

theorem DigitsOf.isNumberChar (h : DigitsOf base cs value) : ∀ c ∈ cs, isNumberChar c = true := by
  have hdigit {c : Char} {d : Nat} (hd : digitInBase? base c = some d) : Number.isNumberChar c = true := by
    unfold Number.isNumberChar
    rw [isAlphanum_of_digitInBase? hd, Bool.true_or]
  induction h with
  | single hd => exact List.forall_mem_singleton.mpr (hdigit hd)
  | next _ hd ih => exact List.forall_mem_append.mpr ⟨ih, List.forall_mem_singleton.mpr (hdigit hd)⟩
  | apart _ hd ih =>
    exact List.forall_mem_append.mpr ⟨ih,
      List.forall_mem_cons.mpr ⟨by decide, List.forall_mem_singleton.mpr (hdigit hd)⟩⟩

/-! ## §2. Reading digits -/

/-- Behind digits comes another one, with or without a low line in front of it. -/
theorem digits?_concat {ds : List Nat} (hds : digits? base cs = some ds) (hd : digitInBase? base c = some d) :
    digits? base (cs ++ [c]) = some (ds ++ [d]) ∧ digits? base (cs ++ ['_', c]) = some (ds ++ [d]) := by
  -- by induction on the digits in front, as the reader goes through them
  induction cs using digits?.induct generalizing ds with
  | case1 => cases hds
  | case2 first =>
    obtain ⟨e, he, rfl⟩ := Option.map_eq_some_iff.mp hds
    simp [digits?, he, hd, ne_lowLine_of_digitInBase? hd]
  | case3 first rest ih =>
    rw [digits?] at hds
    obtain ⟨e, he, hds⟩ := Option.bind_eq_some_iff.mp hds
    obtain ⟨es, hes, hds⟩ := Option.bind_eq_some_iff.mp hds
    cases hds
    have hbehind {tail : List Char} (htail : digits? base (rest ++ tail) = some (es ++ [d])) :
        digits? base (first :: '_' :: (rest ++ tail)) = some (e :: es ++ [d]) := by
      rw [digits?, he, htail]
      rfl
    obtain ⟨hnext, hapart⟩ := ih hes
    exact ⟨hbehind hnext, hbehind hapart⟩
  | case4 first rest hnil hline ih =>
    rw [digits?.eq_4 base first rest hnil hline] at hds
    obtain ⟨e, he, hds⟩ := Option.bind_eq_some_iff.mp hds
    obtain ⟨es, hes, hds⟩ := Option.bind_eq_some_iff.mp hds
    cases hds
    -- what is put behind the rest changes neither that there is one nor how it starts
    obtain ⟨second, others, rfl⟩ := List.exists_cons_of_ne_nil hnil
    have hbehind {tail : List Char} (htail : digits? base (second :: others ++ tail) = some (es ++ [d])) :
        digits? base (first :: (second :: others ++ tail)) = some (e :: es ++ [d]) := by
      have hstill : ∀ behind, second :: others ++ tail = '_' :: behind → False := fun behind heq =>
        hline others (by rw [(List.cons.inj heq).1])
      rw [digits?.eq_4 base first (second :: others ++ tail) (List.cons_ne_nil _ _) hstill, he, htail]
      rfl
    obtain ⟨hnext, hapart⟩ := ih hes
    exact ⟨hbehind hnext, hbehind hapart⟩

/-- How many digits a literal has. -/
def digitCount (cs : List Char) : Nat :=
  cs.countP (· != '_')

theorem ofDigits_concat (base : Nat) (ds : List Nat) (d : Nat) :
    ofDigits base (ds ++ [d]) = ofDigits base ds * base + d := by
  unfold ofDigits
  rw [List.foldl_append, List.foldl_cons, List.foldl_nil]

/-- Digits are read as what they denote. -/
theorem DigitsOf.digits?_eq (h : DigitsOf base cs value) :
    ∃ ds, digits? base cs = some ds ∧ ofDigits base ds = value ∧ ds.length = digitCount cs := by
  unfold digitCount
  induction h with
  | @single c d hd =>
    refine ⟨[d], by rw [digits?, hd]; rfl, by simp [ofDigits], ?_⟩
    simp [ne_lowLine_of_digitInBase? hd]
  | @next cs value d c h hd ih =>
    obtain ⟨ds, hds, rfl, hlength⟩ := ih
    refine ⟨ds ++ [d], (digits?_concat hds hd).1, ofDigits_concat base ds d, ?_⟩
    simp [hlength, ne_lowLine_of_digitInBase? hd]
  | @apart cs value d c h hd ih =>
    obtain ⟨ds, hds, rfl, hlength⟩ := ih
    refine ⟨ds ++ [d], (digits?_concat hds hd).2, ofDigits_concat base ds d, ?_⟩
    simp [hlength, ne_lowLine_of_digitInBase? hd]

end Digits

/-! ## §3. Reading literals -/

section Literals

variable {cs : List Char} {value : Nat}

/-- The characters that numbers are written with are in ASCII, and no blanks. -/
theorem isNumberChar_cases {c : Char} (h : isNumberChar c = true) :
    c.toNat < 0x7F ∧ isAsciiBlank c = false := by
  unfold isNumberChar at h
  rw [Bool.or_eq_true, beq_iff_eq] at h
  rcases h with h | rfl
  · change (decide (c.val ≥ 65 ∧ c.val ≤ 90) || decide (c.val ≥ 97) && decide (c.val ≤ 122) ||
      decide (c.val ≥ 48) && decide (c.val ≤ 57)) = true at h
    simp only [Bool.or_eq_true, Bool.and_eq_true, decide_eq_true_eq, UInt32.le_iff_toNat_le, ge_iff_le] at h
    change (65 ≤ c.toNat ∧ c.toNat ≤ 90 ∨ 97 ≤ c.toNat ∧ c.toNat ≤ 122) ∨ 48 ≤ c.toNat ∧ c.toNat ≤ 57 at h
    refine ⟨by omega, ?_⟩
    simp [isAsciiBlank, inRanges]
    omega
  · decide

/-- A numeral without blanks and without digits of other scripts is read as it is. -/
theorem trimmed_plainNumeral (h : ∀ c ∈ cs, isNumberChar c = true) :
    trimWhile isAsciiBlank (plainNumeral cs) = cs := by
  have hplain : plainNumeral cs = cs := by
    unfold plainNumeral
    refine (List.map_congr_left fun c hc => ?_).trans (List.map_id cs)
    rw [if_pos (isNumberChar_cases (h c hc)).1, id]
  have hkept (cs : List Char) (h : ∀ c ∈ cs, isNumberChar c = true) : cs.dropWhile isAsciiBlank = cs := by
    cases cs with
    | nil => rfl
    | cons first rest =>
      have hblank := (isNumberChar_cases (h first List.mem_cons_self)).2
      exact List.dropWhile_cons_of_neg (by rw [hblank]; exact Bool.false_ne_true)
  unfold trimWhile dropEndWhile
  rw [hplain, hkept cs h, hkept _ fun c hc => h c (List.mem_reverse.mp hc), List.reverse_reverse]

theorem splitSign_of_isDigit {first : Char} {rest : List Char} (h : first.isDigit = true) :
    splitSign (first :: rest) = (false, first :: rest) := by
  unfold splitSign
  split
  · next heq =>
    cases heq
    exact absurd h (by decide)
  · next heq =>
    cases heq
    exact absurd h (by decide)
  · rfl

/-- The literal is a decimal one. -/
def isDecimal (cs : List Char) : Bool :=
  cs.all fun c => c.isDigit || c == '_'

theorem digitInBase?_ten_iff {c : Char} : (digitInBase? 10 c).isSome = true ↔ c.isDigit = true := by
  unfold digitInBase?
  rw [Option.isSome_filter]
  split
  · next h =>
    -- a digit of ASCII is worth less than ten
    have hbound := h
    simp only [Char.isDigit, Bool.and_eq_true, decide_eq_true_eq, UInt32.le_iff_toNat_le, ge_iff_le] at hbound
    change 48 ≤ c.toNat ∧ c.toNat ≤ 57 at hbound
    have hzero : '0'.toNat = 48 := rfl
    simp [h]
    omega
  · next h =>
    refine iff_of_false ?_ h
    split
    · simp
    · split
      · simp
      · simp

theorem isDecimal_of_digitsOf (h : DigitsOf 10 cs value) : isDecimal cs = true := by
  have hdigit {c : Char} {d : Nat} (hd : digitInBase? 10 c = some d) : (c.isDigit || c == '_') = true := by
    rw [digitInBase?_ten_iff.mp (Option.isSome_of_eq_some hd), Bool.true_or]
  unfold isDecimal
  induction h with
  | single hd => simpa using hdigit hd
  | next _ hd ih => simpa [ih] using hdigit hd
  | apart _ hd ih => simpa [ih] using hdigit hd

theorem mark_cases {mark : Char} {base : Nat} (h : (mark, base) ∈ baseMarks) :
    mark.isAlpha = true ∧ mark.isDigit = false ∧ mark ∉ ['.', 'e', 'E', '_'] := by
  have hall : ∀ pair ∈ baseMarks, pair.1.isAlpha = true ∧ pair.1.isDigit = false ∧
      pair.1 ∉ ['.', 'e', 'E', '_'] := by decide
  exact hall (mark, base) h

/-- A digit of a decimal literal is no mark of an exponent. -/
theorem not_mem_of_isDecimal {mark : Char} (hmark : mark.isDigit = false) (hline : mark ≠ '_')
    (h : isDecimal cs = true) : mark ∉ cs := by
  intro hmem
  have hdecimal := List.all_eq_true.mp h mark hmem
  rw [hmark, Bool.false_or, beq_iff_eq] at hdecimal
  exact hline hdecimal

theorem isDecimal_based {mark : Char} {base : Nat} (hmark : (mark, base) ∈ baseMarks) :
    isDecimal ('0' :: mark :: cs) = false := by
  obtain ⟨-, hdigit, hother⟩ := mark_cases hmark
  have hline : mark ≠ '_' := fun h => hother (by simp [h])
  simp [isDecimal, hdigit, hline]

/-- A literal starts with a digit, and all its characters are such as numbers are written with. -/
theorem IsInteger.chars (h : IsInteger cs value) :
    (∃ first rest, cs = first :: rest ∧ first.isDigit = true) ∧ ∀ c ∈ cs, isNumberChar c = true := by
  cases h with
  | decimal h hzero =>
    obtain ⟨first, rest, d, rfl, hd⟩ := h.exists_cons
    exact ⟨⟨first, rest, rfl, digitInBase?_ten_iff.mp (Option.isSome_of_eq_some hd)⟩, h.isNumberChar⟩
  | @based mark _ _ _ hmark h =>
    have hchar : isNumberChar mark = true := by
      unfold isNumberChar Char.isAlphanum
      rw [(mark_cases hmark).1, Bool.true_or, Bool.true_or]
    exact ⟨⟨'0', _, rfl, by decide⟩,
      List.forall_mem_cons.mpr ⟨by decide, List.forall_mem_cons.mpr ⟨hchar, h.isNumberChar⟩⟩⟩

/-- Behind the mark of a base its digits are read. -/
theorem unsignedLiteral?_based {mark : Char} {base : Nat} (hmark : (mark, base) ∈ baseMarks)
    (h : DigitsOf base cs value) : unsignedLiteral? ('0' :: mark :: cs) = some value := by
  obtain ⟨ds, hds, hvalue, -⟩ := h.digits?_eq
  obtain ⟨first, rest, d, rfl, hd⟩ := h.exists_cons
  have hmarked : marked? base (first :: rest) = some value := by
    unfold marked?
    split
    · next heq => exact absurd (List.cons.inj heq).1 (ne_lowLine_of_digitInBase? hd)
    · rw [hds, Option.map_some, hvalue]
  simp only [baseMarks, List.mem_cons, Prod.mk.injEq, List.not_mem_nil, or_false] at hmark
  rcases hmark with ⟨rfl, rfl⟩ | ⟨rfl, rfl⟩ | ⟨rfl, rfl⟩ | ⟨rfl, rfl⟩ | ⟨rfl, rfl⟩ | ⟨rfl, rfl⟩ <;>
    exact hmarked

/-- A decimal literal is read if it does not have too many digits. -/
theorem unsignedLiteral?_decimal (h : DigitsOf 10 cs value) (hzero : cs.head? = some '0' → cs = ['0']) :
    unsignedLiteral? cs = if digitCount cs ≤ maxDigits then some value else none := by
  have hread : unsignedDecimal? cs = if digitCount cs ≤ maxDigits then some value else none := by
    obtain ⟨ds, hds, hvalue, hlength⟩ := h.digits?_eq
    unfold unsignedDecimal?
    rw [hds, ← hlength, ← hvalue]
    rfl
  by_cases hfirst : cs.head? = some '0'
  · -- of the decimal literals that start with a zero there is only zero itself
    obtain rfl := hzero hfirst
    have hvalue : value = 0 := by
      obtain ⟨ds, hds, rfl, -⟩ := h.digits?_eq
      have hself : digits? 10 ['0'] = some [0] := by decide
      rw [Option.some.inj (hds.symm.trans hself)]
      rfl
    rw [hvalue]
    decide
  · obtain ⟨first, rest, d, rfl, -⟩ := h.exists_cons
    have hne : first ≠ '0' := fun heq => hfirst (by rw [heq, List.head?_cons])
    rw [← hread]
    unfold unsignedLiteral?
    split
    all_goals first
      | exact absurd (List.cons.inj ‹_ = _›).1 hne
      | rfl

/-- The text of a literal is read like its characters. -/
theorem readLiteral?_of_chars {text : String} (h : IsInteger text.toList value) :
    readLiteral? text = (unsignedLiteral? text.toList).map Int.ofNat := by
  obtain ⟨⟨first, rest, hcs, hfirst⟩, hchars⟩ := h.chars
  unfold readLiteral?
  rw [trimmed_plainNumeral hchars, hcs, splitSign_of_isDigit hfirst]
  rfl

/-- **A literal is read as the number that it denotes, unless it is a decimal one with too many
digits.** -/
theorem readLiteral?_eq {text : String} (h : IsInteger text.toList value) :
    readLiteral? text
      = if isDecimal text.toList = true ∧ maxDigits < digitCount text.toList then none else some ↑value := by
  rw [readLiteral?_of_chars h]
  generalize hcs : text.toList = cs at h
  cases h with
  | decimal h hzero =>
    rw [unsignedLiteral?_decimal h hzero, isDecimal_of_digitsOf h]
    by_cases hcount : digitCount cs ≤ maxDigits
    · rw [if_pos hcount, if_neg (by omega)]
      rfl
    · rw [if_neg hcount, if_pos ⟨rfl, by omega⟩]
      rfl
  | based hmark h =>
    rw [unsignedLiteral?_based hmark h, isDecimal_based hmark, if_neg (by simp)]
    rfl

end Literals

/-! ## §4. Numbers with a point or an exponent -/

namespace Binary64

theorem read?_eq {text : String} (h : ∀ c ∈ text.toList, isNumberChar c = true) :
    read? text = if barsBetweenDigits ' ' text.toList then
        unsigned? (splitSign (text.toList.filter (· != '_'))).1 (splitSign (text.toList.filter (· != '_'))).2
      else none := by
  unfold read?
  rw [trimmed_plainNumeral h]

theorem toLower_of_isDigit {c : Char} (h : c.isDigit = true) : c.toLower = c := by
  simp only [Char.isDigit, Bool.and_eq_true, decide_eq_true_eq, UInt32.le_iff_toNat_le, ge_iff_le] at h
  change 48 ≤ c.toNat ∧ c.toNat ≤ 57 at h
  have hupper : ¬ (c.toNat ≥ 'A'.toNat ∧ c.toNat ≤ 'Z'.toNat) := by
    have hfirst : 'A'.toNat = 65 := rfl
    omega
  unfold Char.toLower
  exact dif_neg hupper

/-- The word for infinity or for not-a-number does not start with a digit. -/
theorem unsigned?_of_isDigit {negative : Bool} {first : Char} {rest : List Char} (h : first.isDigit = true) :
    unsigned? negative (first :: rest) = unsignedNumeral? negative (first :: rest) := by
  have hword (word : List Char) (hword : word.head?.any Char.isDigit = false) :
      ((first :: rest).map Char.toLower == word) = false := by
    rw [beq_eq_false_iff_ne]
    rintro rfl
    rw [List.map_cons, List.head?_cons, Option.any_some, toLower_of_isDigit h, h] at hword
    exact Bool.true_eq_false.mp hword
  unfold unsigned?
  dsimp only
  rw [hword "inf".toList (by decide), hword "infinity".toList (by decide), hword "nan".toList (by decide)]
  rfl

/-- **The mark of a base stops the reader behind the zero in front of it.** -/
theorem read?_based {text : String} {mark : Char} {base value : Nat} {cs : List Char}
    (hmark : (mark, base) ∈ baseMarks) (h : DigitsOf base cs value) (htext : text.toList = '0' :: mark :: cs) :
    read? text = none := by
  have hinteger : IsInteger text.toList value := htext ▸ .based hmark h
  obtain ⟨-, hdigit, hother⟩ := mark_cases hmark
  simp only [List.mem_cons, List.not_mem_nil, or_false, not_or] at hother
  obtain ⟨hpoint, hsmall, hlarge, hline⟩ := hother
  have hzero : ('0' : Char).isDigit = true := by decide
  have hplain : text.toList.filter (· != '_') = '0' :: mark :: cs.filter (· != '_') := by
    rw [htext, List.filter_cons_of_pos (by decide), List.filter_cons_of_pos (by simpa using hline)]
  -- the digits in front of the mark are the zero, and the mark neither is a point nor starts an exponent
  have hnone (rest : List Char) : unsignedNumeral? false ('0' :: mark :: rest) = none := by
    unfold unsignedNumeral?
    rw [List.takeWhile_cons_of_pos hzero, List.dropWhile_cons_of_pos hzero,
      List.takeWhile_cons_of_neg (by rw [hdigit]; exact Bool.false_ne_true),
      List.dropWhile_cons_of_neg (by rw [hdigit]; exact Bool.false_ne_true)]
    simp [hpoint, exponent?, hsmall, hlarge]
  rw [read?_eq hinteger.chars.2, hplain, splitSign_of_isDigit hzero, unsigned?_of_isDigit hzero, hnone, ite_self]

end Binary64

/-! ## §5. The decimal text of a number -/

theorem toList_toString (n : Nat) : (toString n).toList = Nat.toDigits 10 n :=
  String.toList_ofList

theorem digitInBase?_digitChar {d : Nat} (hd : d < 10) : digitInBase? 10 d.digitChar = some d := by
  have hall : ∀ d < 10, digitInBase? 10 (Nat.digitChar d) = some d := by decide
  exact hall d hd

/-- The digits of a number denote it, and a zero stands in front only if it is the number itself. -/
theorem digitsOf_toDigits (n : Nat) :
    DigitsOf 10 (Nat.toDigits 10 n) n ∧ ((Nat.toDigits 10 n).head? = some '0' → n = 0) := by
  induction n using Nat.strongRecOn with
  | _ n ih =>
    -- by strong induction, since the digits in front are those of `n / 10`
    by_cases hlt : n < 10
    · have hall : ∀ d < 10, Nat.digitChar d = '0' → d = 0 := by decide
      rw [Nat.toDigits_of_lt_base hlt, List.head?_cons]
      exact ⟨.single (digitInBase?_digitChar hlt), fun h => hall n hlt (Option.some.inj h)⟩
    · obtain ⟨hfront, hzero⟩ := ih (n / 10) (by omega)
      obtain ⟨first, rest, d, hdigits, -⟩ := hfront.exists_cons
      have hnext := hfront.next (digitInBase?_digitChar (Nat.mod_lt n (by omega)))
      rw [Nat.div_add_mod'] at hnext
      rw [Nat.toDigits_of_base_le (by omega) (by omega)]
      refine ⟨hnext, fun h => ?_⟩
      rw [hdigits, List.cons_append, List.head?_cons] at h
      rw [hdigits, List.head?_cons] at hzero
      have := hzero h
      omega

theorem isDigit_of_mem_toDigits {n : Nat} : ∀ c ∈ Nat.toDigits 10 n, c.isDigit = true :=
  fun _ hc => Nat.isDigit_of_mem_toDigits (by decide) (by decide) hc

/-- The text of a number has at most so many digits exactly if the number is below the power of ten. -/
theorem length_toDigits_le_iff {limit : Nat} (hlimit : 0 < limit) (n : Nat) :
    (Nat.toDigits 10 n).length ≤ limit ↔ n < Nat.pow 10 limit :=
  Nat.length_toDigits_le_iff (by decide) hlimit

theorem digitCount_toDigits_le_iff {limit : Nat} (hlimit : 0 < limit) (n : Nat) :
    digitCount (Nat.toDigits 10 n) ≤ limit ↔ n < Nat.pow 10 limit := by
  have hcount : digitCount (Nat.toDigits 10 n) = (Nat.toDigits 10 n).length := by
    refine List.countP_eq_length.mpr fun c hc => bne_iff_ne.mpr ?_
    rintro rfl
    exact absurd (isDigit_of_mem_toDigits '_' hc) (by decide)
  rw [hcount]
  exact length_toDigits_le_iff hlimit n

/-- **The decimal text of a number is a literal that denotes it.** -/
theorem isInteger_toString (n : Nat) : IsInteger (toString n).toList n := by
  obtain ⟨hdigits, hzero⟩ := digitsOf_toDigits n
  rw [toList_toString]
  refine .decimal hdigits fun h => ?_
  rw [hzero h]
  rfl

/-- A row of digits is a number for the reader of numbers with a point or an exponent. -/
theorem Binary64.isSome_read?_of_digits {text : String} (hne : text.toList ≠ [])
    (h : ∀ c ∈ text.toList, c.isDigit = true) : (Binary64.read? text).isSome = true := by
  have hline {c : Char} (hc : c.isDigit = true) : c ≠ '_' := by
    rintro rfl
    exact absurd hc (by decide)
  have hchars : ∀ c ∈ text.toList, isNumberChar c = true := fun c hc => by
    simp [isNumberChar, Char.isAlphanum, h c hc]
  have hbars (cs : List Char) : ∀ previous ≠ '_', (∀ c ∈ cs, c.isDigit = true) →
      Binary64.barsBetweenDigits previous cs = true := by
    induction cs with
    | nil => exact fun previous hprevious _ => bne_iff_ne.mpr hprevious
    | cons c cs ih =>
      intro previous hprevious hcs
      obtain ⟨hc, hrest⟩ := List.forall_mem_cons.mp hcs
      simp [Binary64.barsBetweenDigits, hline hc, hprevious, ih c (hline hc) hrest]
  have hfilter : text.toList.filter (· != '_') = text.toList :=
    List.filter_eq_self.mpr fun c hc => bne_iff_ne.mpr (hline (h c hc))
  rw [Binary64.read?_eq hchars, if_pos (hbars text.toList ' ' (by decide) h), hfilter]
  obtain ⟨first, rest, hcs⟩ := List.exists_cons_of_ne_nil hne
  rw [hcs] at h ⊢
  have hfirst := h first List.mem_cons_self
  rw [splitSign_of_isDigit hfirst, Binary64.unsigned?_of_isDigit hfirst]
  -- all characters are digits, so that there is neither a point nor an exponent
  have htake : (first :: rest).takeWhile Char.isDigit = first :: rest := List.takeWhile_eq_self_iff.mpr h
  have hdrop : (first :: rest).dropWhile Char.isDigit = [] := List.dropWhile_eq_nil_iff.mpr h
  unfold Binary64.unsignedNumeral?
  rw [htake, hdrop]
  rfl

end LivePreview.Number
