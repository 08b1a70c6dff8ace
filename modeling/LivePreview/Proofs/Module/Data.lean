/-
  LivePreview.Proofs.Module.Data
  ──────────────────────────────
  **Style and JSON modules carry their data unchanged.**

  A value is written into code as JSON, and then the code points that may not stand in a
  script element are escaped (`inert`).  The escapes are put in after the value has been
  written, without regard to what stands where.  They only hit the insides of texts,
  because no other part of a value holds such a code point (`inert_of_forall`), and inside a
  text an escape is read as what it stands for (`exists_body_inert_keepPoint`).

  So what is written for a value denotes the value (`denotes_inertLiteral`), if its whole
  numbers are short enough to be read and its objects hold no name twice.  Every value that
  a text denotes is such a value (`recorded_of_denotes`).  Doubles are left out: what is
  written for one need not be the text that it was read from.
-/
import LivePreview.Module.Basic
import LivePreview.Proofs.Json.Document
import LivePreview.Proofs.Number.Integer
import LivePreview.Proofs.Table
import LivePreview.Proofs.Text.Occurrence

namespace LivePreview

namespace Module

open LivePreview.Json
open LivePreview.Number (maxDigits ofDigits signed)

variable {points rest : List CodePoint}

/-! ## §1. Code that may stand in a script element -/

/-- The code points that may not stand in a script element. -/
def activePoints : List CodePoint :=
  [.char '<', .char '\u2028', .char '\u2029']

/-- None of them is in the text. -/
def IsInert (text : Text) : Prop :=
  ∀ point ∈ activePoints, point ∉ text.points

/-- Code points of JSON as they stand in a script element. -/
def inert (points : List CodePoint) : List CodePoint :=
  points.flatMap fun point => (inertPoint point).points

theorem inert_append (points rest : List CodePoint) : inert (points ++ rest) = inert points ++ inert rest :=
  List.flatMap_append

/-- A code point that may not stand in a script element is escaped, and any other one is kept. -/
theorem points_inertPoint (point : CodePoint) :
    (inertPoint point).points
      = if point ∈ activePoints then (unitEscape point.toNat).map .char else [point] := by
  by_cases h : point ∈ activePoints
  · rw [if_pos h]
    have hall : ∀ point ∈ activePoints, (inertPoint point).points = (unitEscape point.toNat).map .char := by
      decide
    exact hall point h
  · rw [if_neg h]
    simp only [activePoints, List.mem_cons, List.not_mem_nil, or_false, not_or] at h
    simp [inertPoint, h]

theorem inert_of_forall (h : ∀ point ∈ points, point ∉ activePoints) : inert points = points := by
  unfold inert
  induction points with
  | nil => rfl
  | cons point points ih =>
    rw [List.forall_mem_cons] at h
    rw [List.flatMap_cons, points_inertPoint, if_neg h.1, ih h.2]
    rfl

/-- Characters of a class that holds no active one are kept. -/
theorem inert_of_is {p : Char → Bool} (hp : ∀ point ∈ activePoints, point.is p = false)
    (h : ∀ point ∈ points, point.is p = true) : inert points = points :=
  inert_of_forall fun point hpoint hactive => Bool.false_ne_true ((hp point hactive).symm.trans (h point hpoint))

theorem isInert_inert (points : List CodePoint) : IsInert ⟨inert points⟩ := by
  intro active hactive hmem
  obtain ⟨point, -, hpoint⟩ := List.mem_flatMap.mp hmem
  rw [points_inertPoint] at hpoint
  split at hpoint
  · next hin =>
    have hall : ∀ point ∈ activePoints, ∀ active ∈ activePoints,
        active ∉ (unitEscape point.toNat).map CodePoint.char := by
      decide
    exact hall point hin active hactive hpoint
  · next hout =>
    rw [List.mem_singleton] at hpoint
    exact hout (hpoint ▸ hactive)

theorem IsInert.append {a b : Text} (ha : IsInert a) (hb : IsInert b) : IsInert (a ++ b) := by
  intro point hpoint hmem
  rcases List.mem_append.mp hmem with hmem | hmem
  · exact ha point hpoint hmem
  · exact hb point hpoint hmem

/-! ## §2. Texts -/

theorem inert_unitEscape (unit : Nat) : inert ((unitEscape unit).map .char) = (unitEscape unit).map .char := by
  refine inert_of_is (p := inEscape) (by decide) fun point hpoint => ?_
  obtain ⟨c, hc, rfl⟩ := List.mem_map.mp hpoint
  exact inEscape_of_mem_unitEscape hc

theorem body_unitEscape {parts : List Text.Part} {after : List CodePoint} {unit : Nat} (hunit : unit < 0x10000)
    (h : Body rest parts after) : Body ((unitEscape unit).map .char ++ rest) (.unit unit :: parts) after := by
  unfold unitEscape
  rw [hex_four hunit]
  exact .unit (unit?_digitChar hunit) h

/-- A character has a short escape, is written as a unit, or stands for itself. -/
theorem escapeChar_unicode_cases (c : Char) :
    (∃ letter, escaped? letter = some c ∧ escapeChar .unicode c = ['\\', letter])
      ∨ c.toNat < 0x80 ∧ escapeChar .unicode c = unitEscape c.toNat
      ∨ c ≠ '"' ∧ c ≠ '\\' ∧ ¬ c.toNat < 0x20 ∧ escapeChar .unicode c = [c] := by
  by_cases hascii : c.toNat ≤ 0x7E
  · -- in ASCII both kinds of literals are alike
    have hsame : escapeChar .unicode c = escapeChar .ascii c := by
      simp [escapeChar, Nat.not_lt_of_le hascii]
    have hunits : units c = [c.toNat] := if_pos (by omega)
    rw [hsame]
    rcases escapeChar_cases c with ⟨letter, -, hletter, hwritten⟩ | hwritten | hkept
    · exact .inl ⟨letter, hletter, hwritten⟩
    · rw [hunits, List.flatMap_singleton] at hwritten
      exact .inr (.inl ⟨by omega, hwritten⟩)
    · exact .inr (.inr hkept)
  · have hne : ∀ other : Char, other.toNat ≤ 0x7E → c ≠ other := by
      rintro other hother rfl
      exact hascii hother
    refine .inr (.inr ⟨hne _ (by decide), hne _ (by decide), by omega, ?_⟩)
    have hcontrol : ¬ c.toNat < 0x20 := by omega
    simp [escapeChar, hne '"' (by decide), hne '\\' (by decide), hne '\n' (by decide), hne '\r' (by decide),
      hne '\t' (by decide), hne '\x08' (by decide), hne '\x0c' (by decide), hcontrol]

/-- The part is read as the code point, whatever comes behind it. -/
def IsAlone (point : CodePoint) (part : Text.Part) : Prop :=
  part.alone = point ∧ ∀ code, part = .unit code → code < 0xD800

theorem joinParts_cons {point : CodePoint} {part : Text.Part} (h : IsAlone point part) (parts : List Text.Part) :
    Text.joinParts (part :: parts) = point :: Text.joinParts parts := by
  obtain ⟨rfl, hcode⟩ := h
  cases part with
  | point p => exact Text.joinParts_point p parts
  | unit code =>
    refine joinParts_unit fun low _ => ?_
    have hlow : ¬ 0xD800 ≤ code := Nat.not_le_of_lt (hcode code rfl)
    simp [Text.arePartners, hlow]

theorem isAlone_point (point : CodePoint) : IsAlone point (.point point) :=
  ⟨rfl, nofun⟩

theorem isAlone_unit {c : Char} (h : c.toNat < 0xD800) : IsAlone (.char c) (.unit c.toNat) := by
  refine ⟨ofNat_toNat_char c, ?_⟩
  rintro code ⟨⟩
  exact h

/-- A code point that stands for itself may be escaped behind that. -/
theorem body_inertPoint {parts : List Text.Part} {after : List CodePoint} {point : CodePoint}
    (hquote : point ≠ .char '"') (hback : point ≠ .char '\\') (hcontrol : ¬ point.toNat < 0x20)
    (h : Body rest parts after) :
    ∃ part, IsAlone point part ∧ Body (inert [point] ++ rest) (part :: parts) after := by
  have hinert : inert [point] = (inertPoint point).points := List.flatMap_singleton _ _
  rw [hinert, points_inertPoint]
  split
  · next hactive =>
    have hall : ∀ point ∈ activePoints, point.toNat < 0xD800 ∧ CodePoint.ofNat point.toNat = point := by decide
    obtain ⟨hunit, hself⟩ := hall point hactive
    refine ⟨.unit point.toNat, ⟨hself, ?_⟩, body_unitEscape (by omega) h⟩
    rintro code ⟨⟩
    exact hunit
  · exact ⟨.point point, isAlone_point point, .kept hquote hback hcontrol h⟩

/-- **What is written for a code point of a text is read as it**, escapes for both reasons included. -/
theorem exists_body_inert_keepPoint {parts : List Text.Part} {after : List CodePoint} (point : CodePoint)
    (h : Body rest parts after) :
    ∃ part, IsAlone point part ∧ Body (inert (keepPoint point) ++ rest) (part :: parts) after := by
  cases point with
  | half offset =>
    refine body_inertPoint (by rintro ⟨⟩) (by rintro ⟨⟩) ?_ h
    simp only [CodePoint.toNat, CodePoint.firstHalf]
    omega
  | char c =>
    show ∃ part, _ ∧ Body (inert ((escapeChar .unicode c).map .char) ++ rest) _ _
    rcases escapeChar_unicode_cases c with ⟨letter, hletter, hwritten⟩ | ⟨hunit, hwritten⟩
      | ⟨hquote, hback, hcontrol, hwritten⟩
    · have hnone : ∀ point ∈ activePoints, point.char?.bind escaped? = none := by decide
      have hkept : inert [.char '\\', .char letter] = [.char '\\', .char letter] := by
        refine inert_of_forall fun point hpoint hactive => ?_
        simp only [List.mem_cons, List.not_mem_nil, or_false] at hpoint
        rcases hpoint with rfl | rfl
        · exact absurd hactive (by decide)
        · exact Option.some_ne_none c (hletter.symm.trans (hnone _ hactive))
      rw [hwritten, List.map_cons, List.map_singleton, hkept]
      exact ⟨.point (.char c), isAlone_point _, .short hletter h⟩
    · rw [hwritten, inert_unitEscape]
      exact ⟨.unit c.toNat, isAlone_unit (by omega), body_unitEscape (by omega) h⟩
    · rw [hwritten, List.map_singleton]
      exact body_inertPoint (by simpa using hquote) (by simpa using hback) hcontrol h

theorem exists_body_inert (points rest : List CodePoint) :
    ∃ parts, Text.joinParts parts = points
      ∧ Body (inert (points.flatMap keepPoint) ++ .char '"' :: rest) parts rest := by
  induction points with
  | nil => exact ⟨[], rfl, .close⟩
  | cons point points ih =>
    obtain ⟨parts, hparts, hbody⟩ := ih
    obtain ⟨part, hpart, hpoint⟩ := exists_body_inert_keepPoint point hbody
    refine ⟨part :: parts, by rw [joinParts_cons hpart, hparts], ?_⟩
    rw [List.flatMap_cons, inert_append, List.append_assoc]
    exact hpoint

/-- What is written for a text, or for a name. -/
def inertQuote (text : Text) : List CodePoint :=
  .char '"' :: (inert (text.points.flatMap keepPoint) ++ [.char '"'])

theorem inert_quote (text : Text) : inert (quote .unicode text).points = inertQuote text := by
  have hquote : inert [.char '"'] = [.char '"'] := inert_of_forall (by decide)
  show inert ([.char '"'] ++ text.points.flatMap keepPoint ++ [.char '"']) = _
  rw [inert_append, inert_append, hquote]
  rfl

theorem exists_body_inertQuote (text : Text) (rest : List CodePoint) :
    ∃ points parts, inertQuote text ++ rest = .char '"' :: points ∧ Body points parts rest
      ∧ text = .ofParts parts := by
  obtain ⟨parts, hparts, hbody⟩ := exists_body_inert text.points rest
  refine ⟨_, parts, ?_, hbody, Text.ext hparts.symm⟩
  simp [inertQuote]

/-! ## §3. Numbers -/

theorem wholeValue_concat (whole : List CodePoint) (point : CodePoint) :
    wholeValue (whole ++ [point]) = wholeValue whole * 10 + (point.toNat - '0'.toNat) := by
  unfold wholeValue
  rw [List.map_append]
  exact Number.ofDigits_concat 10 _ _

/-- What digits are worth is limited by how many they are. -/
theorem wholeValue_lt {whole : List CodePoint} (h : AreDigits whole) :
    wholeValue whole < Nat.pow 10 whole.length := by
  -- from the last digit, as the value is made up
  induction whole using List.reverseRecOn with
  | nil => exact Nat.one_pos
  | append_singleton whole point ih =>
    have hfront := ih fun point hmem => h point (List.mem_append_left _ hmem)
    have hdigit := h point (List.mem_append_right _ List.mem_cons_self)
    rw [wholeValue_concat, List.length_append, List.length_singleton]
    show _ < Nat.pow 10 whole.length * 10
    cases point with
    | half offset => cases hdigit
    | char c =>
      have hnine := (Char.isDigit_iff_toNat.mp hdigit).2
      have hcode : (CodePoint.char c).toNat - '0'.toNat ≤ 9 := by
        show c.toNat - 48 ≤ 9
        have : '9'.toNat = 57 := rfl
        omega
      omega

theorem wholeValue_toDigits (n : Nat) : wholeValue ((Nat.toDigits 10 n).map .char) = n := by
  induction n using Nat.strongRecOn with
  | _ n ih =>
    -- by strong induction, since the digits in front are those of the tenth part
    have hdigit : ∀ d < 10, (CodePoint.char (Nat.digitChar d)).toNat - '0'.toNat = d := by decide
    by_cases hlt : n < 10
    · rw [Nat.toDigits_of_lt_base hlt]
      show 0 * 10 + _ = n
      rw [Nat.zero_mul, Nat.zero_add]
      exact hdigit n hlt
    · rw [Nat.toDigits_of_base_le (by omega) (by omega), List.map_append, List.map_singleton, wholeValue_concat,
        ih (n / 10) (by omega), hdigit _ (Nat.mod_lt n (by omega))]
      omega

theorem areDigits_toDigits (n : Nat) : AreDigits ((Nat.toDigits 10 n).map .char) := by
  intro point hpoint
  obtain ⟨c, hc, rfl⟩ := List.mem_map.mp hpoint
  exact Number.isDigit_of_mem_toDigits c hc

theorem isWhole_toDigits (n : Nat) : IsWhole ((Nat.toDigits 10 n).map .char) := by
  by_cases hzero : n = 0
  · subst hzero
    exact .inl rfl
  · refine .inr ⟨areDigits_toDigits n, by simp [Nat.toDigits_ne_nil], fun hhead => hzero ?_⟩
    rw [List.head?_map, Option.map_eq_some_iff] at hhead
    obtain ⟨c, hc, heq⟩ := hhead
    obtain rfl := CodePoint.char.inj heq
    exact (Number.digitsOf_toDigits n).2 hc

/-- What is written for a whole number of limited size is a number that is worth it. -/
theorem numeral_toString {n : Int} (h : n.natAbs < Nat.pow 10 maxDigits) :
    Numeral ((toString n : String) : Text).points (.int n) := by
  have hnumeral : ∀ {sign : List CodePoint}, IsSign sign → ∀ m < Nat.pow 10 maxDigits,
      Numeral (sign ++ (Nat.toDigits 10 m).map .char) (.int (signed (!sign.isEmpty) m)) := by
    intro sign hsign m hm
    have hlength : ((Nat.toDigits 10 m).map CodePoint.char).length ≤ maxDigits := by
      rw [List.length_map]
      exact (Number.length_toDigits_le_iff (by decide) m).mpr hm
    have hwhole := Numeral.whole hsign (isWhole_toDigits m) hlength
    rwa [wholeValue_toDigits] at hwhole
  have hpoints : ∀ m : Nat, ((toString m : String) : Text).points = (Nat.toDigits 10 m).map .char := fun m =>
    congrArg (List.map CodePoint.char) (Number.toList_toString m)
  cases n with
  | ofNat m =>
    show Numeral ((toString m : String) : Text).points _
    rw [hpoints]
    exact hnumeral (.inl rfl) m h
  | negSucc m =>
    have hminus : ((toString (Int.negSucc m) : String) : Text).points
        = [.char '-'] ++ (Nat.toDigits 10 (m + 1)).map .char := by
      show ("-" ++ toString (m + 1)).toList.map CodePoint.char = _
      rw [String.toList_append, Number.toList_toString, List.map_append]
      rfl
    rw [hminus]
    exact hnumeral (.inr rfl) (m + 1) h

/-! ## §4. Values -/

/-- A value that is written as it can be read: whole numbers are short enough, no double is finite, and no
object holds a name twice. -/
inductive Recorded : Nat → Json → Prop
  | word {entry : Text × Json} (hentry : entry ∈ words) (levels : Nat) : Recorded levels entry.2
  | int {levels : Nat} {n : Int} (h : n.natAbs < Nat.pow 10 maxDigits) : Recorded levels (.int n)
  | text (s : Text) (levels : Nat) : Recorded levels (.text s)
  | array {levels : Nat} {items : List Json} (h : ∀ item ∈ items, Recorded levels item) :
      Recorded (levels + 1) (.array items)
  | object {levels : Nat} {fields : Fields} (hnames : (Table.keys fields).Nodup)
      (h : ∀ field ∈ fields, Recorded levels field.2) : Recorded (levels + 1) (.object fields)

theorem points_inertLiteral (value : Json) : (inertLiteral value).points = inert (value.line .unicode).points :=
  rfl

theorem inertLiteral_word {entry : Text × Json} (h : entry ∈ words) : inertLiteral entry.2 = entry.1 := by
  have hall : ∀ entry ∈ words, inertLiteral entry.2 = entry.1 := by decide
  exact hall entry h

theorem lineItems_eq (charset : Charset) (items : List Json) :
    lineItems charset items = items.map (line charset) := by
  induction items with
  | nil => rfl
  | cons item items ih => rw [lineItems, ih, List.map_cons]

theorem lineFields_eq (charset : Charset) (fields : Fields) :
    lineFields charset fields
      = fields.map fun field => quote charset field.1 ++ ": " ++ line charset field.2 := by
  induction fields with
  | nil => rfl
  | cons field fields ih => rw [lineFields, ih, List.map_cons]

/-- What is written for a field. -/
def inertField (field : Text × Json) : List CodePoint :=
  inertQuote field.1 ++ .char ':' :: .char ' ' :: (inertLiteral field.2).points

/-- Items with commas and blanks between them. -/
def listed {α : Type} (write : α → List CodePoint) (items : List α) : List CodePoint :=
  [.char ',', .char ' '].intercalate (items.map write)

/-- What is written in brackets for items is written for each of them. -/
theorem inert_bracketed {α : Type} {opening closing : CodePoint} (hopening : opening ∉ activePoints)
    (hclosing : closing ∉ activePoints) (write : α → Text) (items : List α) :
    inert (opening :: ((Text.intercalate ", " (items.map write)).points ++ [closing]))
      = opening :: (listed (fun item => inert (write item).points) items ++ [closing]) := by
  have hjoint : inert [.char ',', .char ' '] = [.char ',', .char ' '] := inert_of_forall (by decide)
  have hfirst : inert [opening] = [opening] := inert_of_forall (by simpa using hopening)
  have hlast : inert [closing] = [closing] := inert_of_forall (by simpa using hclosing)
  have hitems : inert (Text.intercalate ", " (items.map write)).points
      = listed (fun item => inert (write item).points) items := by
    show inert ([CodePoint.char ',', .char ' '].intercalate ((items.map write).map Text.points)) = _
    unfold inert at hjoint ⊢
    rw [Text.flatMap_intercalate, hjoint, List.map_map, List.map_map]
    rfl
  rw [← List.singleton_append, inert_append, inert_append, hfirst, hlast, hitems]
  rfl

theorem points_inertLiteral_array (items : List Json) :
    (inertLiteral (.array items)).points
      = .char '[' :: (listed (fun item => (inertLiteral item).points) items ++ [.char ']']) := by
  rw [points_inertLiteral, line, lineItems_eq]
  exact inert_bracketed (by decide) (by decide) _ items

theorem points_inertLiteral_object (fields : Fields) :
    (inertLiteral (.object fields)).points = .char '\x7b' :: (listed inertField fields ++ [.char '\x7d']) := by
  have hfield : (fun field : Text × Json =>
      inert (quote .unicode field.1 ++ ": " ++ line .unicode field.2).points) = inertField := by
    funext field
    have hcolon : inert [.char ':', .char ' '] = [.char ':', .char ' '] := inert_of_forall (by decide)
    show inert ((quote .unicode field.1).points ++ [.char ':', .char ' '] ++ (line .unicode field.2).points) = _
    rw [inert_append, inert_append, hcolon, inert_quote, List.append_assoc]
    rfl
  rw [points_inertLiteral, line, lineFields_eq, ← hfield]
  exact inert_bracketed (by decide) (by decide) _ fields

theorem gap_comma_blank (points : List CodePoint) : Gap (.char ' ' :: points) points :=
  ⟨[.char ' '], by unfold AreBlanks; decide, rfl⟩

/-- Items that are written with commas between them are a series. -/
theorem series_listed {α : Type} {P : List CodePoint → α → List CodePoint → Prop} {write : α → List CodePoint}
    (closing : CodePoint) {items : List α} (hne : items ≠ [])
    (h : ∀ item ∈ items, ∀ rest, P (write item ++ rest) item rest) (rest : List CodePoint) :
    Series closing P (listed write items ++ closing :: rest) items rest := by
  induction items with
  | nil => exact absurd rfl hne
  | cons item items ih =>
    rw [List.forall_mem_cons] at h
    unfold listed at ih ⊢
    cases items with
    | nil =>
      rw [List.map_singleton, List.intercalate_singleton]
      exact .last (h.1 _) (.refl _)
    | cons next items =>
      rw [List.map_cons, List.map_cons, List.intercalate_cons_cons, List.append_assoc, List.append_assoc,
        ← List.map_cons]
      exact .more (h.1 _) (.refl _) (gap_comma_blank _) (ih (List.cons_ne_nil _ _) h.2)

theorem field_inertField {P : List CodePoint → Json → List CodePoint → Prop} {field : Text × Json}
    (h : ∀ rest, P ((inertLiteral field.2).points ++ rest) field.2 rest) (rest : List CodePoint) :
    Field P (inertField field ++ rest) field rest := by
  obtain ⟨name, value⟩ := field
  obtain ⟨points, parts, hpoints, hbody, rfl⟩ :=
    exists_body_inertQuote name (.char ':' :: .char ' ' :: ((inertLiteral value).points ++ rest))
  unfold inertField
  rw [List.append_assoc, List.cons_append, List.cons_append, hpoints]
  exact .intro hbody (.refl _) (gap_comma_blank _) (h rest)

/-- **What is written for a value denotes it.** -/
theorem denotes_inertLiteral {levels : Nat} {value : Json} (h : Recorded levels value) :
    ∀ rest, Denotes levels ((inertLiteral value).points ++ rest) value rest := by
  -- the empty array and the empty object are apart, since a series has a first item
  induction h with
  | word hentry levels =>
    rw [inertLiteral_word hentry]
    exact fun rest => .of_scalar (.word hentry) levels
  | @int levels n hn =>
    intro rest
    have hnumeral := numeral_toString hn
    have hwritten : (inertLiteral (.int n)).points = ((toString n : String) : Text).points :=
      inert_of_is (by decide) hnumeral.inNumeral
    rw [hwritten]
    exact .of_scalar (.number hnumeral) levels
  | text s levels =>
    intro rest
    obtain ⟨points, parts, hpoints, hbody, rfl⟩ := exists_body_inertQuote s rest
    rw [points_inertLiteral, line, inert_quote, hpoints]
    exact .of_scalar (.text hbody) levels
  | @array levels items _ ih =>
    intro rest
    rw [points_inertLiteral_array, List.cons_append, List.append_assoc]
    cases items with
    | nil => exact .emptyArray (.refl _)
    | cons item items => exact .array (.refl _) (series_listed _ (List.cons_ne_nil _ _) ih rest)
  | @object levels fields hnames _ ih =>
    intro rest
    rw [points_inertLiteral_object, List.cons_append, List.append_assoc]
    cases fields with
    | nil => exact .emptyObject (.refl _)
    | cons field fields =>
      have hseries := series_listed (.char '\x7d') (List.cons_ne_nil field fields)
        (fun field hfield => field_inertField (ih field hfield)) rest
      have hobject := Level.object (.refl _) hseries
      rwa [Table.ofPairs_of_nodup hnames] at hobject

/-! ## §5. What a text denotes -/

mutual

/-- Every number in the value is a whole one or none of finite size. -/
def isWhole : Json → Bool
  | .double (.finite _ _ _) => false
  | .array items => areWholeItems items
  | .object fields => areWholeFields fields
  | _ => true

/-- Every number in the items is. -/
def areWholeItems : List Json → Bool
  | [] => true
  | item :: items => isWhole item && areWholeItems items

/-- Every number in the values of the fields is. -/
def areWholeFields : Fields → Bool
  | [] => true
  | (_, value) :: fields => isWhole value && areWholeFields fields

end

theorem areWholeItems_iff {items : List Json} :
    areWholeItems items = true ↔ ∀ item ∈ items, isWhole item = true := by
  induction items with
  | nil => simp [areWholeItems]
  | cons item items ih => rw [areWholeItems, Bool.and_eq_true, ih, List.forall_mem_cons]

theorem areWholeFields_iff {fields : Fields} :
    areWholeFields fields = true ↔ ∀ field ∈ fields, isWhole field.2 = true := by
  induction fields with
  | nil => simp [areWholeFields]
  | cons field fields ih => rw [areWholeFields, Bool.and_eq_true, ih, List.forall_mem_cons]

/-- Every item of a series is derived. -/
theorem exists_of_mem_series {α : Type} {closing : CodePoint} {P : List CodePoint → α → List CodePoint → Prop}
    {items : List α} (h : Series closing P points items rest) :
    ∀ item ∈ items, ∃ start behind, P start item behind := by
  induction h with
  | last hitem _ => exact fun item hmem => List.mem_singleton.mp hmem ▸ ⟨_, _, hitem⟩
  | more hitem _ _ _ ih => exact List.forall_mem_cons.mpr ⟨⟨_, _, hitem⟩, ih⟩

theorem areDigits_of_isWhole {whole : List CodePoint} (h : IsWhole whole) : AreDigits whole := by
  rcases h with rfl | ⟨hdigits, -, -⟩
  · exact List.forall_mem_singleton.mpr rfl
  · exact hdigits

theorem natAbs_signed (negative : Bool) (n : Nat) : (signed negative n).natAbs = n := by
  cases negative with
  | false => exact Int.natAbs_natCast n
  | true => exact (Int.natAbs_neg _).trans (Int.natAbs_natCast n)

theorem recorded_of_scalar {value : Json} (h : Scalar points value rest) (hwhole : isWhole value = true)
    (levels : Nat) : Recorded levels value := by
  cases h with
  | word hentry => exact .word hentry levels
  | text hbody => exact .text _ levels
  | number hnumeral =>
    cases hnumeral with
    | whole hsign hparts hlimit =>
      have hpow : ∀ {a b : Nat}, a ≤ b → Nat.pow 10 a ≤ Nat.pow 10 b := Nat.pow_le_pow_right (by decide)
      refine .int ?_
      rw [natAbs_signed]
      exact Nat.lt_of_lt_of_le (wholeValue_lt (areDigits_of_isWhole hparts)) (hpow hlimit)
    | @double _ _ _ _ x _ _ _ _ _ _ =>
      have hwords : ∀ x : Number.Binary64, isWhole (.double x) = true → ∃ entry ∈ words, entry.2 = .double x
        | .nan, _ => ⟨("NaN", .double .nan), by decide, rfl⟩
        | .infinity false, _ => ⟨("Infinity", .double (.infinity false)), by decide, rfl⟩
        | .infinity true, _ => ⟨("-Infinity", .double (.infinity true)), by decide, rfl⟩
      obtain ⟨entry, hentry, hx⟩ := hwords x hwhole
      exact hx ▸ .word hentry levels

/-- **What a text denotes is written as it can be read**, if its numbers are whole. -/
theorem recorded_of_denotes (levels : Nat) : ∀ {points rest : List CodePoint} {value : Json},
    Denotes levels points value rest → isWhole value = true → Recorded levels value := by
  -- the items and fields of a value are denoted one level below
  induction levels with
  | zero => exact fun h hwhole => recorded_of_scalar h hwhole 0
  | succ levels ih =>
    intro points rest value h hwhole
    cases h with
    | scalar h => exact recorded_of_scalar h hwhole _
    | emptyArray _ => exact .array nofun
    | emptyObject _ => exact .object List.nodup_nil nofun
    | array _ h =>
      refine .array fun item hitem => ?_
      obtain ⟨start, behind, hvalue⟩ := exists_of_mem_series h item hitem
      exact ih hvalue (areWholeItems_iff.mp hwhole item hitem)
    | @object points start _ fields _ h =>
      have hnone : (Table.keys ([] : Fields)).Nodup := List.nodup_nil
      refine .object (Table.nodup_keys_insertAll hnone fields) fun field hfield => ?_
      -- the last value under a name is the value of a field
      have hmem : field.2 ∈ Table.values fields := by
        rcases Table.mem_values_insertAll (List.mem_map_of_mem hfield) with hnone | hmem
        · cases hnone
        · exact hmem
      obtain ⟨written, hwritten, hvalue⟩ := List.mem_map.mp hmem
      obtain ⟨start, behind, hderived⟩ := exists_of_mem_series h written hwritten
      cases hderived with
      | @intro _ _ _ _ _ _ value _ _ _ hdenotes =>
        obtain rfl : value = field.2 := hvalue
        exact ih hdenotes (areWholeFields_iff.mp hwhole field hfield)

/-! ## §6. Modules -/

theorem isInert_inertLiteral (value : Json) : IsInert (inertLiteral value) :=
  isInert_inert _

theorem isInert_styleCode (path : Text) (css : Json) : IsInert (styleCode path css) := by
  have hfixed : IsInert "const css = " ∧ IsInert ";\n"
      ∧ IsInert "const style = document.createElement(\"style\");\n"
      ∧ IsInert "style.setAttribute(\"data-vfs-path\", " ∧ IsInert ");\n" ∧ IsInert "style.textContent = css;\n"
      ∧ IsInert "document.head.appendChild(style);\n" ∧ IsInert "export default css;\n" := by
    unfold IsInert
    decide +kernel
  obtain ⟨hcss, hend, hstyle, hpath, hclose, hcontent, happend, hexport⟩ := hfixed
  unfold styleCode
  exact ((((((((hcss.append (isInert_inertLiteral _)).append hend).append hstyle).append hpath).append
    (isInert_inertLiteral _)).append hclose).append hcontent).append happend).append hexport

theorem isInert_jsonCode (value : Json) : IsInert (jsonCode value) := by
  have hfixed : IsInert "export default " ∧ IsInert ";\n" := by
    unfold IsInert
    decide
  unfold jsonCode
  exact (hfixed.1.append (isInert_inertLiteral _)).append hfixed.2

/-- A value that can be written is read back from what is written for it. -/
theorem read_inertLiteral {value : Json} (h : Recorded depthLimit value) :
    read (inertLiteral value) = .ok value := by
  have hdenotes := denotes_inertLiteral h []
  rw [List.append_nil] at hdenotes
  exact read_eq_ok_iff.mpr ⟨_, [], .refl _, hdenotes, .refl _⟩

section OfJson

variable {path text : Text}

theorem ofJson_of_isDocument {value : Json} (h : IsDocument depthLimit text.points value) :
    ofJson path text = .ok (.ok ⟨path, .json, jsonCode value, [], []⟩) := by
  unfold ofJson
  rw [read_eq_ok_iff.mpr h]

/-- A fault that is no limit of the reader is told with its line. -/
theorem ofJson_of_fault {cause : Cause} {position : Nat} (h : read text = .error ⟨cause, position⟩)
    (hcause : cause.isLimit = false) :
    ofJson path text = .ok (.error ⟨path, .invalidJson cause (lineAt text position)⟩) := by
  unfold ofJson
  rw [h]
  -- the two limits are told in another way
  cases cause with
  | tooManyDigits => cases hcause
  | tooDeep => cases hcause
  | _ => rfl

/-- Only a document becomes a module. -/
theorem exists_isDocument_of_ofJson {module : Module} (h : ofJson path text = .ok (.ok module)) :
    ∃ value, IsDocument depthLimit text.points value ∧ module.code = jsonCode value := by
  unfold ofJson at h
  split at h
  · next value hread =>
    obtain rfl := Except.ok.inj (Except.ok.inj h)
    exact ⟨value, read_eq_ok_iff.mp hread, rfl⟩
  · cases h
  · cases h
  · cases h

end OfJson

/-- **Style and JSON modules carry their data unchanged.**  The literals in the code of a style sheet are
read as the style sheet and its path.  A text becomes a JSON module exactly if it is a document; the
literal in the code is then read as the value that the text denotes, if the numbers in it are whole, and
a text that is none, and does not go beyond the limits of the reader, is refused with the line of the
place where its fault shows.  All the code can stand in a script element. -/
theorem data_exact (path css text : Text) :
    (∃ cssLiteral pathLiteral : Text, read cssLiteral = .ok (.text css) ∧ read pathLiteral = .ok (.text path)
      ∧ styleCode path (.text css) = "const css = " ++ cssLiteral ++ ";\n"
          ++ "const style = document.createElement(\"style\");\n"
          ++ "style.setAttribute(\"data-vfs-path\", " ++ pathLiteral ++ ");\n"
          ++ "style.textContent = css;\n"
          ++ "document.head.appendChild(style);\n"
          ++ "export default css;\n")
    ∧ ((∃ module, ofJson path text = .ok (.ok module)) ↔ ∃ value, IsDocument depthLimit text.points value)
    ∧ (∀ value, IsDocument depthLimit text.points value → ∃ literal : Text,
        ofJson path text = .ok (.ok ⟨path, .json, "export default " ++ literal ++ ";\n", [], []⟩)
          ∧ (isWhole value = true → read literal = .ok value))
    ∧ ((∀ value, ¬ IsDocument depthLimit text.points value) → WithinLimits text.points → ∃ cause position,
        read text = .error ⟨cause, position⟩ ∧ position ≤ text.length
          ∧ ofJson path text
            = .ok (.error ⟨path, .invalidJson cause (1 + (text.points.take position).count (.char '\n'))⟩))
    ∧ IsInert (styleCode path (.text css))
    ∧ ∀ module, ofJson path text = .ok (.ok module) → IsInert module.code := by
  refine ⟨⟨_, _, read_inertLiteral (.text css _), read_inertLiteral (.text path _), rfl⟩, ⟨?_, ?_⟩, ?_, ?_,
    isInert_styleCode _ _, ?_⟩
  · rintro ⟨module, hmodule⟩
    obtain ⟨value, hvalue, -⟩ := exists_isDocument_of_ofJson hmodule
    exact ⟨value, hvalue⟩
  · rintro ⟨value, hvalue⟩
    exact ⟨_, ofJson_of_isDocument hvalue⟩
  · intro value hvalue
    refine ⟨_, ofJson_of_isDocument hvalue, fun hwhole => read_inertLiteral ?_⟩
    obtain ⟨start, rest, -, hdenotes, -⟩ := hvalue
    exact recorded_of_denotes _ hdenotes hwhole
  · -- what is not read has a fault, and within the limits that is a mistake in the text
    intro hnone hwithin
    cases hread : read text with
    | ok value => exact absurd (read_eq_ok_iff.mp hread) (hnone value)
    | error fault =>
      obtain ⟨cause, position⟩ := fault
      obtain ⟨hposition, hlimit⟩ := position_le_and_not_isLimit_of_read hread
      refine ⟨cause, position, rfl, hposition, ?_⟩
      rw [ofJson_of_fault hread (hlimit hwithin), lineAt, Nat.add_comm]
  · intro module hmodule
    obtain ⟨value, -, hcode⟩ := exists_isDocument_of_ofJson hmodule
    rw [hcode]
    exact isInert_jsonCode value

/-- A name that is written twice, a sign and a pair of escapes, deep in a text; and a text that breaks off
in its second line. -/
theorem data_exact_nested :
    (∃ literal : Text,
      ofJson "/a.json" "[\x7b\"k<\": 1, \"k\\u003c\": [-0, \"\\ud83d\\ude00\\u2028\"]\x7d, null]"
          = .ok (.ok ⟨"/a.json", .json, "export default " ++ literal ++ ";\n", [], []⟩)
        ∧ read literal = .ok (.array [.object [("k<", .array [.int 0, .text "😀\u2028"])], .null]))
    ∧ ∃ cause, ofJson "/a.json" "[1,\n 2" = .ok (.error ⟨"/a.json", .invalidJson cause 2⟩) := by
  have hbroken : read "[1,\n 2" = .error ⟨.expectingComma, 6⟩ := by decide +kernel
  obtain ⟨-, -, hvalue, -⟩ := data_exact "/a.json" ""
    "[\x7b\"k<\": 1, \"k\\u003c\": [-0, \"\\ud83d\\ude00\\u2028\"]\x7d, null]"
  obtain ⟨-, -, -, hfault, -⟩ := data_exact "/a.json" "" "[1,\n 2"
  obtain ⟨literal, hmodule, hliteral⟩ := hvalue _ (read_eq_ok_iff.mp (show
    read _ = .ok (.array [.object [("k<", .array [.int 0, .text "😀\u2028"])], .null]) by decide +kernel))
  refine ⟨⟨literal, hmodule, hliteral (by decide)⟩, ?_⟩
  obtain ⟨cause, position, hread, -, hrefused⟩ := hfault
    (fun value h => nomatch hbroken.symm.trans (read_eq_ok_iff.mpr h)) (withinLimits_of_length_le (by decide))
  obtain ⟨-, rfl⟩ := Fault.mk.inj (Except.error.inj (hread.symm.trans hbroken))
  exact ⟨cause, hrefused⟩

end Module

end LivePreview
