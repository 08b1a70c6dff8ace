/-
  LivePreview.Proofs.Json.Reading
  ───────────────────────────────
  **Reading what has been written.**

  What is written for a code point stands for some parts, whatever comes behind it
  (`Spells`), and the parts of a text make up the text again.  Only two halves side by side
  that are a surrogate pair are read as the character that they make up
  (`Text.joined`); a text without halves is read as it was (`joined_of_isEncodable`).

  So a literal is read back, and an object of values that are, with the keys and values
  that have been written and with any blanks between them (`reads_object`).
-/
import LivePreview.Json.Reader
import LivePreview.Json.Writer
import LivePreview.Proofs.Json.Encodable

namespace LivePreview

/-! ## §1. Halves that are read as one character -/

namespace Text

/-- What a code point is read from if it is written as it is. -/
def partOf : CodePoint → Part
  | .char c => .point (.char c)
  | .half offset => .unit (CodePoint.half offset).toNat

/-- The text with a character in place of every two halves that make one up. -/
def joined (text : Text) : Text :=
  ofParts (text.points.map partOf)

theorem joinParts_point (point : CodePoint) (parts : List Part) :
    joinParts (.point point :: parts) = point :: joinParts parts := by
  cases parts <;> rfl

theorem joined_of_isEncodable {text : Text} (h : text.isEncodable = true) : text.joined = text := by
  rw [isEncodable_iff] at h
  refine Text.ext ?_
  show joinParts (text.points.map partOf) = text.points
  generalize text.points = points at h
  induction points with
  | nil => rfl
  | cons point points ih =>
    cases point with
    | half offset => exact absurd List.mem_cons_self (h offset)
    | char c =>
      show joinParts (.point (.char c) :: points.map partOf) = _
      rw [joinParts_point, ih fun offset hmem => h offset (List.mem_cons_of_mem _ hmem)]

end Text

namespace Json

open LivePreview.Text (Part partOf joinParts)

/-! ## §2. Code points -/

/-- What is written stands for some parts in a text, wherever it is. -/
def Spells (written : List CodePoint) (parts : List Part) : Prop :=
  ∀ opening rest, rest ≠ [] →
    readParts opening (written ++ rest) = parts.foldr consPart (readParts opening rest)

theorem Spells.nil : Spells [] [] :=
  fun _ _ _ => rfl

theorem Spells.append {a b : List CodePoint} {parts more : List Part} (ha : Spells a parts)
    (hb : Spells b more) : Spells (a ++ b) (parts ++ more) := by
  intro opening rest hrest
  rw [List.append_assoc, ha _ _ (by simp [hrest]), hb _ _ hrest, List.foldr_append]

/-- The last digit of a number in hexadecimal is read as it was. -/
theorem digit?_digitChar {d : Nat} (h : d < 16) : digit? (.char d.digitChar) = some d := by
  have hall : ∀ d < 16, digit? (.char (Nat.digitChar d)) = some d := by decide
  exact hall d h

/-- The digits of a number, one more than those of its sixteenth part. -/
theorem toDigits_sixteen (n : Nat) : Nat.toDigits 16 n
    = if n < 16 then [n.digitChar] else Nat.toDigits 16 (n / 16) ++ [(n % 16).digitChar] := by
  split
  · next hlt => exact Nat.toDigits_of_lt_base hlt
  · next hle => exact Nat.toDigits_of_base_le (by decide) (by omega)

/-- Four digits are enough for a unit. -/
theorem hex_four {n : Nat} (h : n < 0x10000) : Text.hex 4 n
    = [(n / 0x1000).digitChar, (n / 0x100 % 16).digitChar, (n / 16 % 16).digitChar, (n % 16).digitChar] := by
  have hzero : '0' = (0 : Nat).digitChar := rfl
  have htop : n / 16 / 16 / 16 < 16 := by omega
  unfold Text.hex
  rw [toDigits_sixteen n, toDigits_sixteen (n / 16), toDigits_sixteen (n / 16 / 16),
    toDigits_sixteen (n / 16 / 16 / 16), if_pos htop, hzero]
  split
  · simp [List.replicate, show n / 0x1000 = 0 by omega, show n / 0x100 % 16 = 0 by omega,
      show n / 16 % 16 = 0 by omega, show n % 16 = n by omega]
  split
  · simp [List.replicate, show n / 0x1000 = 0 by omega, show n / 0x100 % 16 = 0 by omega,
      show n / 16 % 16 = n / 16 by omega]
  split
  · simp [show n / 0x1000 = 0 by omega, show n / 0x100 % 16 = n / 16 / 16 by omega]
  · simp [show n / 0x1000 = n / 16 / 16 / 16 by omega,
      show n / 0x100 % 16 = n / 16 / 16 % 16 by omega]

/-- The digits of a unit are read back as the unit. -/
theorem unit?_digitChar {unit : Nat} (h : unit < 0x10000) :
    unit? (.char (unit / 0x1000).digitChar) (.char (unit / 0x100 % 16).digitChar)
      (.char (unit / 16 % 16).digitChar) (.char (unit % 16).digitChar) = some unit := by
  unfold unit?
  rw [digit?_digitChar (by omega), digit?_digitChar (by omega), digit?_digitChar (by omega),
    digit?_digitChar (by omega)]
  simp only [Option.bind_eq_bind, Option.bind_some, Option.pure_def, Option.some.injEq]
  omega

theorem spells_unitEscape {unit : Nat} (h : unit < 0x10000) :
    Spells ((unitEscape unit).map .char) [.unit unit] := by
  intro opening rest hrest
  obtain ⟨next, behind, rfl⟩ := List.exists_cons_of_ne_nil hrest
  unfold unitEscape
  rw [hex_four h]
  simp only [List.map_cons, List.map_nil, List.cons_append, List.nil_append, List.foldr_cons, List.foldr_nil]
  rw [readParts, unit?_digitChar h]

theorem spells_kept {c : Char} (hquote : c ≠ '"') (hback : c ≠ '\\') (hcontrol : ¬ c.toNat < 0x20) :
    Spells [.char c] [.point (.char c)] := by
  intro opening rest hrest
  simp only [List.cons_append, List.nil_append, List.foldr_cons, List.foldr_nil]
  rw [readParts]
  · rw [if_neg (show ¬ (CodePoint.char c).toNat < 0x20 from hcontrol)]
  all_goals simp [hquote, hback]

theorem spells_short {letter c : Char} (hletter : letter ≠ 'u') (h : escaped? letter = some c) :
    Spells [.char '\\', .char letter] [.point (.char c)] := by
  intro opening rest hrest
  simp only [List.cons_append, List.nil_append, List.foldr_cons, List.foldr_nil]
  rw [readParts]
  · have hescape : (CodePoint.char letter).char?.bind escaped? = some c := h
    rw [if_neg (by simp [hletter]), hescape]
  all_goals simp [hletter]

/-- The parts are what a code point can be read from. -/
def Stands : CodePoint → List Part → Prop
  | .char c, parts => parts = [.point (.char c)] ∨ parts = (units c).map .unit
  | .half offset, parts => parts = [.unit (CodePoint.half offset).toNat]

theorem units_lt {c : Char} {unit : Nat} (h : unit ∈ units c) : unit < 0x10000 := by
  have hvalid : c.toNat < 0xD800 ∨ 0xDFFF < c.toNat ∧ c.toNat < 0x110000 := c.valid
  unfold units at h
  split at h
  · simp only [List.mem_singleton] at h
    omega
  · simp only [List.mem_cons, List.not_mem_nil, or_false] at h
    omega

theorem spells_units {us : List Nat} (h : ∀ unit ∈ us, unit < 0x10000) :
    Spells ((us.flatMap unitEscape).map .char) (us.map .unit) := by
  induction us with
  | nil => exact .nil
  | cons unit us ih =>
    rw [List.forall_mem_cons] at h
    rw [List.flatMap_cons, List.map_append]
    exact (spells_unitEscape h.1).append (ih h.2)

/-- A character has a short escape, is written in units, or stands for itself. -/
theorem escapeChar_cases (c : Char) :
    (∃ letter, letter ≠ 'u' ∧ escaped? letter = some c ∧ escapeChar .ascii c = ['\\', letter])
      ∨ escapeChar .ascii c = (units c).flatMap unitEscape
      ∨ c ≠ '"' ∧ c ≠ '\\' ∧ ¬ c.toNat < 0x20 ∧ escapeChar .ascii c = [c] := by
  let escapes := [('"', '"'), ('\\', '\\'), ('\n', 'n'), ('\r', 'r'), ('\t', 't'), ('\x08', 'b'), ('\x0c', 'f')]
  by_cases hshort : c ∈ escapes.map Prod.fst
  · left
    have hall : ∀ pair ∈ escapes, pair.2 ≠ 'u' ∧ escaped? pair.2 = some pair.1
        ∧ escapeChar .ascii pair.1 = ['\\', pair.2] := by
      decide
    obtain ⟨pair, hpair, rfl⟩ := List.mem_map.mp hshort
    exact ⟨pair.2, hall pair hpair⟩
  · right
    simp only [escapes, List.map_cons, List.map_nil, List.mem_cons, List.not_mem_nil, or_false, not_or] at hshort
    have hother : escapeChar .ascii c = if c.toNat < 0x20 then unitEscape c.toNat
        else if 0x7E < c.toNat then (units c).flatMap unitEscape else [c] := by
      simp [escapeChar, hshort]
    rw [hother]
    split
    · next hcontrol =>
      have hself : units c = [c.toNat] := if_pos (by omega)
      rw [hself, List.flatMap_singleton]
      exact .inl rfl
    split
    · exact .inl rfl
    · next hcontrol _ => exact .inr ⟨hshort.1, hshort.2.1, hcontrol, rfl⟩

/-- What is written for a code point in ASCII can be read. -/
theorem exists_spells_escapePoint (point : CodePoint) :
    ∃ parts, Stands point parts ∧ Spells ((escapePoint point).map .char) parts := by
  cases point with
  | half offset =>
    refine ⟨_, rfl, spells_unitEscape ?_⟩
    simp only [CodePoint.toNat, CodePoint.firstHalf]
    omega
  | char c =>
    show ∃ parts, Stands _ parts ∧ Spells ((escapeChar .ascii c).map .char) parts
    rcases escapeChar_cases c with ⟨letter, hletter, hstands, hwritten⟩ | hwritten
      | ⟨hquote, hback, hcontrol, hwritten⟩
    · rw [hwritten]
      exact ⟨_, .inl rfl, spells_short hletter hstands⟩
    · rw [hwritten]
      exact ⟨_, .inr rfl, spells_units fun unit hunit => units_lt hunit⟩
    · rw [hwritten]
      exact ⟨_, .inl rfl, spells_kept hquote hback hcontrol⟩

/-! ## §3. Texts -/

theorem joinParts_unit {unit : Nat} {parts : List Part}
    (h : ∀ low, parts.head? = some (.unit low) → Text.arePartners unit low = false) :
    joinParts (.unit unit :: parts) = .ofNat unit :: joinParts parts := by
  match parts with
  | [] => rfl
  | .point point :: rest => rfl
  | .unit low :: rest =>
    rw [joinParts, if_neg (by rw [h low rfl]; exact Bool.false_ne_true)]

theorem ofNat_toNat_char (c : Char) : CodePoint.ofNat c.toNat = .char c := by
  have hvalid : c.toNat < 0xD800 ∨ 0xDFFF < c.toNat ∧ c.toNat < 0x110000 := c.valid
  unfold CodePoint.ofNat
  rw [dif_neg (by simp only [CodePoint.firstHalf]; omega), Char.ofNat_toNat]

/-- A character is read from its units, whatever comes behind them. -/
theorem joinParts_units (c : Char) (parts : List Part) :
    joinParts ((units c).map .unit ++ parts) = .char c :: joinParts parts := by
  have hvalid : c.toNat < 0xD800 ∨ 0xDFFF < c.toNat ∧ c.toNat < 0x110000 := c.valid
  unfold units
  split
  · rw [List.map_singleton, List.singleton_append, joinParts_unit, ofNat_toNat_char]
    intro low _
    simp [Text.arePartners]
    omega
  · have hpartners : Text.arePartners (0xD800 + (c.toNat - 0x10000) / 0x400)
        (0xDC00 + (c.toNat - 0x10000) % 0x400) = true := by
      simp [Text.arePartners]
      omega
    rw [List.map_cons, List.map_singleton, List.cons_append, List.cons_append, List.nil_append,
      joinParts, if_pos hpartners]
    have hcode : 0x10000 + (0xD800 + (c.toNat - 0x10000) / 0x400 - 0xD800) * 0x400
        + (0xDC00 + (c.toNat - 0x10000) % 0x400 - 0xDC00) = c.toNat := by omega
    rw [hcode, Char.ofNat_toNat]

/-- What a character is read from does not begin with the second half of a pair. -/
theorem arePartners_of_head? {c : Char} {parts more : List Part} (h : Stands (.char c) parts) {low : Nat}
    (hlow : (parts ++ more).head? = some (.unit low)) (high : Nat) : Text.arePartners high low = false := by
  have hvalid : c.toNat < 0xD800 ∨ 0xDFFF < c.toNat ∧ c.toNat < 0x110000 := c.valid
  rcases h with rfl | rfl
  · cases hlow
  · unfold units at hlow
    split at hlow
    · cases hlow
      simp [Text.arePartners]
      omega
    · cases hlow
      simp [Text.arePartners]
      omega

/-- **The parts of a text make up the text**, with a character in place of two halves that make one
up. -/
theorem joinParts_flatMap {spell : CodePoint → List Part} (h : ∀ point, Stands point (spell point)) :
    ∀ points : List CodePoint, joinParts (points.flatMap spell) = joinParts (points.map partOf)
  | [] => rfl
  | .char c :: rest => by
    rw [List.flatMap_cons, List.map_cons]
    show _ = joinParts (.point (.char c) :: rest.map partOf)
    rw [Text.joinParts_point, ← joinParts_flatMap h rest]
    rcases h (.char c) with hwhole | hunits
    · rw [hwhole]
      exact Text.joinParts_point _ _
    · rw [hunits, joinParts_units]
  | [.half offset] => by
    have hself : spell (.half offset) = [.unit (CodePoint.half offset).toNat] := h (.half offset)
    rw [List.flatMap_singleton, hself]
    rfl
  | .half offset :: .char c :: rest => by
    have hself : spell (.half offset) = [.unit (CodePoint.half offset).toNat] := h (.half offset)
    rw [List.flatMap_cons, hself, List.singleton_append, joinParts_unit, joinParts_flatMap h (.char c :: rest)]
    · rfl
    · intro low hlow
      rw [List.flatMap_cons] at hlow
      exact arePartners_of_head? (h (.char c)) hlow _
  | .half offset :: .half other :: rest => by
    have hself : spell (.half offset) = [.unit (CodePoint.half offset).toNat] := h (.half offset)
    have hother : spell (.half other) = [.unit (CodePoint.half other).toNat] := h (.half other)
    have hrest := joinParts_flatMap h rest
    have hnext := joinParts_flatMap h (.half other :: rest)
    rw [List.flatMap_cons, hother, List.singleton_append] at hnext
    rw [List.flatMap_cons, List.flatMap_cons, hself, hother, List.singleton_append, List.singleton_append]
    show _ = joinParts (.unit (CodePoint.half offset).toNat :: .unit (CodePoint.half other).toNat
      :: rest.map partOf)
    rw [joinParts, joinParts, hrest, hnext]
    rfl

/-- What is written for code points can be read. -/
def IsLegible (write : CodePoint → List CodePoint) : Prop :=
  ∀ point, ∃ parts, Stands point parts ∧ Spells (write point) parts

theorem spells_flatMap {write : CodePoint → List CodePoint} {spell : CodePoint → List Part}
    (h : ∀ point, Spells (write point) (spell point)) (points : List CodePoint) :
    Spells (points.flatMap write) (points.flatMap spell) := by
  induction points with
  | nil => exact .nil
  | cons point points ih =>
    rw [List.flatMap_cons, List.flatMap_cons]
    exact (h point).append ih

/-- A text between quotes. -/
def enquoted (write : CodePoint → List CodePoint) (text : Text) : List CodePoint :=
  .char '"' :: (text.points.flatMap write ++ [.char '"'])

/-- **A text that is written legibly is read back**, halves that make up a character apart. -/
theorem readText_enquoted {write : CodePoint → List CodePoint} (hwrite : IsLegible write) (text : Text)
    (rest : List CodePoint) : readText (enquoted write text ++ rest) = .ok (text.joined, rest) := by
  choose spell hstands hspells using hwrite
  have hparts : ∀ parts : List Part, parts.foldr consPart (.ok ([], rest)) = .ok (parts, rest) := by
    intro parts
    induction parts with
    | nil => rfl
    | cons part parts ih => rw [List.foldr_cons, ih]; rfl
  have hread : readParts (enquoted write text ++ rest) (text.points.flatMap write ++ .char '"' :: rest)
      = .ok (text.points.flatMap spell, rest) := by
    rw [spells_flatMap hspells _ _ _ (List.cons_ne_nil _ _), readParts, hparts]
  have hdrop : (enquoted write text ++ rest).drop 1 = text.points.flatMap write ++ .char '"' :: rest := by
    simp [enquoted]
  unfold readText
  rw [hdrop, hread]
  show Except.ok (Text.ofParts _, rest) = _
  unfold Text.ofParts
  rw [joinParts_flatMap hstands]
  rfl

/-! ## §4. Values -/

/-- The code points are blanks. -/
def AreBlanks (points : List CodePoint) : Prop :=
  ∀ point ∈ points, point.is isSpace = true

theorem skip_append {blanks : List CodePoint} (h : AreBlanks blanks) (points : List CodePoint) :
    skip (blanks ++ points) = skip points :=
  List.dropWhile_append_of_pos h

theorem skip_of_not_space {point : CodePoint} (h : point.is isSpace = false) (points : List CodePoint) :
    skip (point :: points) = point :: points := by
  unfold skip
  rw [List.dropWhile_cons_of_neg (by rw [h]; exact Bool.false_ne_true)]

/-- What is written is read as a value, whatever comes behind it. -/
structure Reads (levels : Nat) (written : List CodePoint) (value : Json) : Prop where
  starts : ∃ point tail, written = point :: tail ∧ point.is isSpace = false
  read : ∀ fuel rest, written.length ≤ fuel →
    readValue levels fuel (written ++ rest) = .ok (value, rest)

theorem Reads.skip_eq {levels : Nat} {written : List CodePoint} {value : Json}
    (h : Reads levels written value) (rest : List CodePoint) :
    skip (written ++ rest) = written ++ rest := by
  obtain ⟨point, tail, rfl, hpoint⟩ := h.starts
  exact skip_of_not_space hpoint _

theorem reads_enquoted {write : CodePoint → List CodePoint} (hwrite : IsLegible write) (levels : Nat)
    (text : Text) : Reads levels (enquoted write text) (.text text.joined) := by
  refine ⟨⟨_, _, rfl, by decide⟩, fun fuel rest hfuel => ?_⟩
  obtain ⟨fuel, rfl⟩ : ∃ smaller, fuel = smaller + 1 :=
    Nat.exists_eq_succ_of_ne_zero (by simp only [enquoted, List.length_cons] at hfuel; omega)
  have htext := readText_enquoted hwrite text rest
  unfold enquoted at htext ⊢
  rw [List.cons_append] at htext ⊢
  rw [readValue, htext]

section Object

variable {write : CodePoint → List CodePoint} (hwrite : IsLegible write) {levels : Nat}
  {value : Json → List CodePoint} {back : Json → Json}

/-- A field as it is written. -/
def fieldPoints (write : CodePoint → List CodePoint) (value : Json → List CodePoint) (field : Text × Json) :
    List CodePoint :=
  enquoted write field.1 ++ .char ':' :: .char ' ' :: value field.2

/-- Fields begin with a quote. -/
theorem exists_intercalate_fieldPoints (write : CodePoint → List CodePoint)
    (value : Json → List CodePoint) (joint : List CodePoint) (field : Text × Json) (fields : Fields) :
    ∃ more, joint.intercalate ((field :: fields).map (fieldPoints write value)) = .char '"' :: more := by
  cases fields with
  | nil =>
    rw [List.map_singleton, List.intercalate_singleton]
    exact ⟨_, rfl⟩
  | cons next fields =>
    rw [List.map_cons, List.map_cons, List.intercalate_cons_cons]
    exact ⟨_, rfl⟩

/-- What is read behind the first field of some. -/
def readBehind (levels fuel : Nat) (first : Text × Json) (behind : List CodePoint) : Reading Fields :=
  match skip behind with
  | .char '\x7d' :: rest => .ok ([first], rest)
  | .char ',' :: rest =>
    match readFields levels fuel (skip rest) with
    | .ok (fields, rest) => .ok (first :: fields, rest)
    | .error e => .error e
  | rest => .error (.expectingComma, rest)

section Behind

variable {fuel : Nat} {first : Text × Json} {behind rest : List CodePoint}

theorem readBehind_of_brace (h : skip behind = .char '\x7d' :: rest) :
    readBehind levels fuel first behind = .ok ([first], rest) := by
  unfold readBehind
  rw [h]
  rfl

theorem readBehind_of_comma {fields : Fields} {after : List CodePoint} (h : skip behind = .char ',' :: rest)
    (hlater : readFields levels fuel (skip rest) = .ok (fields, after)) :
    readBehind levels fuel first behind = .ok (first :: fields, after) := by
  unfold readBehind
  simp only [h, hlater]

end Behind

include hwrite

/-- A field is read, and then what stands behind it. -/
theorem readFields_fieldPoints {field : Text × Json} (hvalue : Reads levels (value field.2) (back field.2))
    {fuel : Nat} (hfuel : (value field.2).length ≤ fuel) (behind : List CodePoint) :
    readFields levels (fuel + 1) (fieldPoints write value field ++ behind)
      = readBehind levels fuel (field.1.joined, back field.2) behind := by
  have htext := readText_enquoted hwrite field.1 (.char ':' :: .char ' ' :: (value field.2 ++ behind))
  have hpoints : fieldPoints write value field ++ behind
      = enquoted write field.1 ++ .char ':' :: .char ' ' :: (value field.2 ++ behind) := by
    simp [fieldPoints]
  have hcolon : skip (.char ':' :: .char ' ' :: (value field.2 ++ behind))
      = .char ':' :: .char ' ' :: (value field.2 ++ behind) := skip_of_not_space (by decide) _
  have hread : readValue levels fuel (skip (.char ' ' :: (value field.2 ++ behind)))
      = .ok (back field.2, behind) := by
    have hblank : AreBlanks [.char ' '] := by unfold AreBlanks; decide
    have hspace : skip (.char ' ' :: (value field.2 ++ behind)) = skip (value field.2 ++ behind) :=
      skip_append hblank _
    rw [hspace, hvalue.skip_eq behind, hvalue.read fuel behind hfuel]
  rw [hpoints]
  unfold enquoted at htext ⊢
  rw [List.cons_append] at htext ⊢
  rw [readFields, htext]
  simp only [hcolon, hread]
  rfl

variable {gap tail : List CodePoint}

theorem readFields_intercalate (hgap : AreBlanks gap) (htail : AreBlanks tail) {fields : Fields}
    (hne : fields ≠ []) (hvalues : ∀ field ∈ fields, Reads levels (value field.2) (back field.2))
    {fuel : Nat} (rest : List CodePoint)
    (hfuel : ((.char ',' :: gap).intercalate (fields.map (fieldPoints write value))).length ≤ fuel) :
    readFields levels fuel ((.char ',' :: gap).intercalate (fields.map (fieldPoints write value))
        ++ (tail ++ .char '\x7d' :: rest))
      = .ok (fields.map fun field => (field.1.joined, back field.2), rest) := by
  induction fields generalizing fuel with
  | nil => exact absurd rfl hne
  | cons field fields ih =>
    rw [List.forall_mem_cons] at hvalues
    have hlength : (fieldPoints write value field).length
        = (enquoted write field.1).length + ((value field.2).length + 2) := by
      simp [fieldPoints]
    have hshort : (value field.2).length < fuel := by
      cases fields with
      | nil =>
        rw [List.map_singleton, List.intercalate_singleton] at hfuel
        omega
      | cons next fields =>
        rw [List.map_cons, List.map_cons, List.intercalate_cons_cons, List.length_append,
          List.length_append] at hfuel
        omega
    obtain ⟨fuel, rfl⟩ : ∃ less, fuel = less + 1 := ⟨fuel - 1, by omega⟩
    have hfield := fun behind => readFields_fieldPoints hwrite hvalues.1 (Nat.le_of_lt_succ hshort) behind
    cases fields with
    | nil =>
      have hend : skip (tail ++ .char '\x7d' :: rest) = .char '\x7d' :: rest :=
        (skip_append htail _).trans (skip_of_not_space (by decide) _)
      rw [List.map_singleton, List.intercalate_singleton, hfield, readBehind_of_brace hend]
      rfl
    | cons next fields =>
      rw [List.map_cons, List.map_cons, List.intercalate_cons_cons] at hfuel ⊢
      rw [List.length_append, List.length_append, List.length_cons] at hfuel
      rw [← List.map_cons] at hfuel ⊢
      have hlater := ih (List.cons_ne_nil _ _) hvalues.2 (show _ ≤ fuel by omega)
      obtain ⟨more, hmore⟩ :=
        exists_intercalate_fieldPoints write value (.char ',' :: gap) next fields
      have hcomma : ∀ points, skip (.char ',' :: points) = .char ',' :: points :=
        skip_of_not_space (by decide)
      have hskip : ∀ points, skip (gap ++ .char '"' :: points) = .char '"' :: points := fun points =>
        (skip_append hgap _).trans (skip_of_not_space (by decide) points)
      rw [hmore, List.cons_append] at hlater
      rw [hmore, List.append_assoc, List.append_assoc, hfield, List.cons_append]
      exact readBehind_of_comma (hcomma _) (by rwa [List.cons_append, hskip])

/-- **An object is read back**, with any blanks between its fields: a repeated name keeps its first
place and its last value. -/
theorem reads_object {lead : List CodePoint} (hlead : AreBlanks lead) (hgap : AreBlanks gap)
    (htail : AreBlanks tail) {fields : Fields}
    (hvalues : ∀ field ∈ fields, Reads levels (value field.2) (back field.2)) :
    Reads (levels + 1)
      (.char '\x7b' :: (lead ++ (.char ',' :: gap).intercalate (fields.map (fieldPoints write value))
        ++ (tail ++ [.char '\x7d'])))
      (.object (Table.ofPairs (fields.map fun field => (field.1.joined, back field.2)))) := by
  refine ⟨⟨_, _, rfl, by decide⟩, fun fuel rest hfuel => ?_⟩
  rw [List.length_cons, List.length_append, List.length_append] at hfuel
  obtain ⟨fuel, rfl⟩ : ∃ less, fuel = less + 1 := ⟨fuel - 1, by omega⟩
  have hend : skip (tail ++ .char '\x7d' :: rest) = .char '\x7d' :: rest :=
    (skip_append htail _).trans (skip_of_not_space (by decide) _)
  have hassoc : ∀ points : List CodePoint,
      .char '\x7b' :: (lead ++ points ++ (tail ++ [.char '\x7d'])) ++ rest
        = .char '\x7b' :: (lead ++ (points ++ (tail ++ .char '\x7d' :: rest))) := by
    intro points
    simp
  rw [hassoc]
  cases fields with
  | nil =>
    rw [readValue, skip_append hlead, List.map_nil, List.intercalate_nil, List.nil_append, hend]
    rfl
  | cons field fields =>
    have hread := readFields_intercalate hwrite hgap htail (List.cons_ne_nil field fields) hvalues rest
      (show _ ≤ fuel by omega)
    obtain ⟨more, hmore⟩ :=
      exists_intercalate_fieldPoints write value (.char ',' :: gap) field fields
    rw [hmore] at hread ⊢
    rw [readValue, skip_append hlead, List.cons_append, skip_of_not_space (by decide)]
    show (match readFields levels fuel (.char '"' :: (more ++ _)) with
      | .ok (fields, rest) => Except.ok (Json.object (Table.ofPairs fields), rest)
      | .error e => Except.error e) = _
    rw [← List.cons_append, hread]

end Object

/-- **A text that is written as a value is read as that value.** -/
theorem readWithin_of_reads {levels : Nat} {text : Text} {value : Json}
    (h : Reads levels text.points value) (hmark : text.points.head? ≠ some (.char '\uFEFF')) :
    readWithin levels text = .ok value := by
  have hskip := h.skip_eq []
  have hread := h.read (2 * text.points.length + 2) [] (by omega)
  rw [List.append_nil] at hskip hread
  unfold readWithin
  dsimp only
  rw [if_neg (by simpa using hmark), hskip, hread]
  rfl

end Json

end LivePreview
