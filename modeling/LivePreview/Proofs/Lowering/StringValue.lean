/-
  LivePreview.Proofs.Lowering.StringValue
  ───────────────────────────────────────
  **What the escapes of a specifier stand for, and what they are read as.**

  The value of a string literal is a sequence of UTF-16 units, and an escape stands for some
  of them (`Escape.value`).  A specifier is made up of what its escapes are read as
  (`Escape.reading`), and the two differ for some kinds of escapes:

      escape    \n   \u0061   \q   \v   \0   \x61   \u{61}   \ and a line break
      value     LF   a        q    VT   NUL  a      a        nothing
      reading   LF   a        q    v    0    x61    u{61}    the line break

  No reading is shorter than the value, so that what one escape adds is not made up for by
  another: a specifier is the value of its literal exactly if each of its escapes is read as
  what it stands for (`specifierOf_eq_iff`).
-/
import LivePreview.Proofs.Lowering.Emitted.Call

namespace LivePreview

/-! ## §1. Units -/

/-- The UTF-16 units of a code point. -/
def CodePoint.units (point : CodePoint) : List Nat :=
  if point.toNat < 0x10000 then [point.toNat]
  else [0xD800 + (point.toNat - 0x10000) / 0x400, 0xDC00 + (point.toNat - 0x10000) % 0x400]

theorem CodePoint.toNat_char (c : Char) : (CodePoint.char c).toNat = c.toNat :=
  rfl

/-- The UTF-16 units of a text. -/
def Text.units (text : Text) : List Nat :=
  text.points.flatMap CodePoint.units

namespace CodePoint

theorem units_eq_singleton {point : CodePoint} (h : point.toNat < 0x10000) : point.units = [point.toNat] :=
  if_pos h

theorem length_units (point : CodePoint) : 1 ≤ point.units.length ∧ point.units.length ≤ 2 := by
  unfold units
  split <;> simp

theorem length_le_length_units (points : List CodePoint) : points.length ≤ (points.flatMap units).length := by
  induction points with
  | nil => exact Nat.le_refl _
  | cons point points ih =>
    have hpoint := point.length_units
    rw [List.flatMap_cons, List.length_append, List.length_cons]
    omega

theorem toNat_ofNat {code : Nat} (h : code ≤ 0x10FFFF) : (ofNat code).toNat = code := by
  unfold ofNat firstHalf
  split
  · next hhalf =>
    simp only [toNat, firstHalf]
    omega
  · next hhalf =>
    have hvalid : code.isValidChar := by
      unfold Nat.isValidChar
      omega
    unfold toNat Char.ofNat
    rw [dif_pos hvalid]
    rfl

/-- A code is that of a character, unless it is that of half of a pair. -/
theorem is_ofNat_iff {code : Nat} :
    (ofNat code).is (fun _ => true) = true ↔ ¬ (0xD800 ≤ code ∧ code ≤ 0xDFFF) := by
  unfold ofNat firstHalf
  split
  · exact iff_of_false Bool.false_ne_true (by omega)
  · exact iff_of_true rfl (by omega)

end CodePoint

namespace Text

variable {text : Text} {s : String}

/-- Units that start with those of a character start with those of no other. -/
theorem units_char_append {c d : Char} {units more : List Nat}
    (h : (CodePoint.char c).units ++ units = (CodePoint.char d).units ++ more) : c = d ∧ units = more := by
  have hc : c.toNat < 0xD800 ∨ 0xDFFF < c.toNat ∧ c.toNat < 0x110000 := c.valid
  have hd : d.toNat < 0xD800 ∨ 0xDFFF < d.toNat ∧ d.toNat < 0x110000 := d.valid
  have hnat : c.toNat = d.toNat ∧ units = more := by
    unfold CodePoint.units at h
    rw [CodePoint.toNat_char, CodePoint.toNat_char] at h
    -- a high surrogate is the unit of no character, so both have one unit, or both have two
    split at h <;> split at h <;> simp only [List.cons_append, List.nil_append, List.cons.injEq] at h
    · exact h
    · omega
    · omega
    · exact ⟨by omega, h.2.2⟩
  exact ⟨Char.toNat_inj.mp hnat.1, hnat.2⟩

/-- Characters are known by their units. -/
theorem chars_eq_of_units_eq {cs ds : List Char} (h : (ofChars cs).units = (ofChars ds).units) : cs = ds := by
  have hunits : ∀ c : Char, (CodePoint.char c).units ≠ [] := by
    intro c
    unfold CodePoint.units
    split <;> exact List.cons_ne_nil _ _
  unfold Text.units ofChars at h
  simp only [List.flatMap_map] at h
  induction cs generalizing ds with
  | nil =>
    cases ds with
    | nil => rfl
    | cons d ds => exact absurd (List.append_eq_nil_iff.mp h.symm).1 (hunits d)
  | cons c cs ih =>
    cases ds with
    | nil => exact absurd (List.append_eq_nil_iff.mp h).1 (hunits c)
    | cons d ds =>
      obtain ⟨rfl, hrest⟩ := units_char_append h
      rw [ih hrest]

/-- A text is a string exactly if it has the units of it, and no half of a pair stands by itself. -/
theorem eq_ofString_iff : text = ofString s ↔ text.units = (ofString s).units ∧ text.isEncodable = true := by
  constructor
  · rintro rfl
    refine ⟨rfl, List.all_eq_true.mpr fun point hpoint => ?_⟩
    obtain ⟨c, -, rfl⟩ := List.mem_map.mp hpoint
    rfl
  · rintro ⟨hunits, hencodable⟩
    obtain ⟨cs, hcs⟩ : ∃ cs : List Char, text = ofChars cs := by
      refine ⟨text.points.filterMap CodePoint.char?, Text.ext ?_⟩
      have hall := List.all_eq_true.mp hencodable
      unfold ofChars
      generalize text.points = points at hall
      induction points with
      | nil => rfl
      | cons point points ih =>
        cases point with
        | half offset => exact absurd (hall _ List.mem_cons_self) Bool.false_ne_true
        | char c => exact congrArg _ (ih fun other hmem => hall other (List.mem_cons_of_mem _ hmem))
    rw [hcs] at hunits ⊢
    exact congrArg ofChars (chars_eq_of_units_eq hunits)

end Text

namespace Lowering

open LivePreview.Syntax (Node)

/-! ## §2. Escapes -/

/-- A hexadecimal digit, and the number that it is. -/
structure HexDigit where
  char : Char
  value : Nat
  isDigit : Text.hexDigit? char = some value

/-- The number that digits make up. -/
def HexDigit.number (digits : List HexDigit) : Nat :=
  digits.foldl (fun number digit => number * 16 + digit.value) 0

/-- What ends a line. -/
inductive LineBreak where
  | lineFeed
  | carriageReturn
  | both
  | lineSeparator
  | paragraphSeparator

/-- The characters of a line break. -/
def LineBreak.chars : LineBreak → List Char
  | .lineFeed => ['\n']
  | .carriageReturn => ['\r']
  | .both => ['\r', '\n']
  | .lineSeparator => ['\u2028']
  | .paragraphSeparator => ['\u2029']

/-- The characters that stand for one unit behind a backslash, and the unit. -/
def singleEscapes : List (Char × Nat) :=
  [('b', 0x08), ('t', 0x09), ('n', 0x0A), ('v', 0x0B), ('f', 0x0C), ('r', 0x0D), ('"', 0x22), ('\'', 0x27),
    ('\\', 0x5C)]

/-- The characters that do not stand for themselves behind a backslash, or do not stand there at all. -/
def escapeCharacters : List Char :=
  singleEscapes.map Prod.fst ++ "0123456789xu\n\r\u2028\u2029".toList

/-- An escape sequence of a string literal in a module. -/
inductive Escape where
  /-- A backslash and one of the characters that stand for one unit. -/
  | single (letter : Char) (code : Nat) (h : (letter, code) ∈ singleEscapes)
  /-- A backslash that makes no difference. -/
  | itself (c : Char) (h : c ∉ escapeCharacters)
  | nul
  /-- The letter `x` and two digits. -/
  | byte (high low : HexDigit)
  /-- The letter `u` and four digits. -/
  | unit (a b c d : HexDigit)
  /-- The letter `u` and digits in braces. -/
  | codePoint (digits : List HexDigit) (h : digits ≠ []) (hlast : HexDigit.number digits ≤ 0x10FFFF)
  /-- A backslash in front of a line break. -/
  | continuation (ending : LineBreak)

namespace Escape

/-- The characters behind the backslash. -/
def behind : Escape → List Char
  | single letter _ _ => [letter]
  | itself c _ => [c]
  | nul => ['0']
  | byte high low => ['x', high.char, low.char]
  | unit a b c d => ['u', a.char, b.char, c.char, d.char]
  | codePoint digits _ _ => 'u' :: '\x7b' :: (digits.map HexDigit.char ++ ['\x7d'])
  | continuation ending => ending.chars

/-- The units that the escape stands for. -/
def value : Escape → List Nat
  | single _ code _ => [code]
  | itself c _ => (CodePoint.char c).units
  | nul => [0]
  | byte high low => [HexDigit.number [high, low]]
  | unit a b c d => [HexDigit.number [a, b, c, d]]
  | codePoint digits _ _ => (CodePoint.ofNat (HexDigit.number digits)).units
  | continuation _ => []

/-- What the escape is read as: what it stands for, or what stands behind its backslash. -/
def reading : Escape → List CodePoint
  | single letter code _ => if letter = 'v' then [.char 'v'] else [.ofNat code]
  | unit a b c d => [.ofNat (HexDigit.number [a, b, c, d])]
  | escape => escape.behind.map .char

/-- The escape is read as what it stands for, and it is a whole character. -/
def IsRead : Escape → Prop
  | single letter _ _ => letter ≠ 'v'
  | itself _ _ => True
  | unit a b c d => ¬ (0xD800 ≤ HexDigit.number [a, b, c, d] ∧ HexDigit.number [a, b, c, d] ≤ 0xDFFF)
  | nul | byte _ _ | codePoint _ _ _ | continuation _ => False

end Escape

/-! ## §3. Reading an escape -/

section Reading

variable {c e : Char} {cs : List Char}

/-- An escape that is known is read as the character that it is known for. -/
theorem escapePoints_known (h : Json.escaped? c = some e) : escapePoints ['\\', c] = [.char e] := by
  have hu : c ≠ 'u' := by
    rintro rfl
    exact nomatch h
  unfold escapePoints
  simp [Json.readParts, hu, CodePoint.char?, h, Json.consPart, Text.Part.alone]

/-- An escape that is not known is read as what stands behind its backslash. -/
theorem escapePoints_unknown (hu : c ≠ 'u') (h : Json.escaped? c = none) :
    escapePoints ('\\' :: c :: cs) = (c :: cs).map .char := by
  unfold escapePoints
  simp [Json.readParts, hu, CodePoint.char?, h]

/-- Four digits are read as one unit. -/
theorem escapePoints_unit (a b c d : HexDigit) :
    escapePoints ['\\', 'u', a.char, b.char, c.char, d.char]
      = [.ofNat (HexDigit.number [a, b, c, d])] := by
  have hunit : Json.unit? (.char a.char) (.char b.char) (.char c.char) (.char d.char)
      = some (HexDigit.number [a, b, c, d]) := by
    simp [Json.unit?, Json.digit?, CodePoint.char?, a.isDigit, b.isDigit, c.isDigit, d.isDigit,
      HexDigit.number]
  unfold escapePoints
  simp [Json.readParts, hunit, Json.consPart, Text.Part.alone]

/-- Braces are no digits. -/
theorem escapePoints_braces (cs : List Char) :
    escapePoints ('\\' :: 'u' :: '\x7b' :: cs) = ('u' :: '\x7b' :: cs).map .char := by
  have hunit : ∀ b c d : CodePoint, Json.unit? (.char '\x7b') b c d = none := fun b c d => rfl
  unfold escapePoints
  match cs with
  | [] => rfl
  | [_] | [_, _] => simp [Json.readParts]
  | _ :: _ :: _ :: cs =>
    simp only [List.map_cons, List.cons_append]
    cases cs <;> simp [Json.readParts, hunit]

/-- **What an escape is read as.** -/
theorem escapePoints_eq (escape : Escape) : escapePoints ('\\' :: escape.behind) = escape.reading := by
  cases escape with
  | single letter code h =>
    have hall : ∀ pair ∈ singleEscapes, escapePoints ['\\', pair.1]
        = if pair.1 = 'v' then [.char 'v'] else [.ofNat pair.2] := by decide
    exact hall _ h
  | itself c h =>
    by_cases hslash : c = '/'
    · subst hslash
      exact escapePoints_known rfl
    · refine escapePoints_unknown (fun hu => h (hu ▸ by decide)) ?_
      unfold Json.escaped?
      split <;> first | rfl | exact absurd (by decide) h | exact absurd rfl hslash
  | nul => exact escapePoints_unknown (by decide) rfl
  | byte high low => exact escapePoints_unknown (by decide) rfl
  | unit a b c d => exact escapePoints_unit a b c d
  | codePoint digits h hlast => exact escapePoints_braces _
  | continuation ending => cases ending <;> exact escapePoints_unknown (by decide) rfl

end Reading

/-! ## §4. Readings and values -/

theorem hexDigit?_lt {c : Char} {value : Nat} (h : Text.hexDigit? c = some value) : value < 16 := by
  unfold Text.hexDigit? at h
  simp only [Char.isDigit, Bool.and_eq_true, decide_eq_true_eq, ge_iff_le, Char.le_def, UInt32.le_iff_toNat_le] at h
  split at h
  · next hdigit =>
    cases h
    change 48 ≤ c.toNat ∧ c.toNat ≤ 57 at hdigit
    show c.toNat - 48 < 16
    omega
  split at h
  · next hlower =>
    cases h
    change 97 ≤ c.toNat ∧ c.toNat ≤ 102 at hlower
    show c.toNat - 97 + 10 < 16
    omega
  split at h
  · next hupper =>
    cases h
    change 65 ≤ c.toNat ∧ c.toNat ≤ 70 at hupper
    show c.toNat - 65 + 10 < 16
    omega
  · exact nomatch h

namespace Escape

variable {escape : Escape}

/-- The units of what the escape is read as. -/
def readUnits (escape : Escape) : List Nat :=
  escape.reading.flatMap CodePoint.units

/-- The escape is read as whole characters. -/
def IsWhole (escape : Escape) : Prop :=
  ∀ point ∈ escape.reading, point.is (fun _ => true) = true

theorem units_ofNat {code : Nat} (h : code < 0x10000) : [CodePoint.ofNat code].flatMap CodePoint.units = [code] := by
  have hnat : (CodePoint.ofNat code).toNat = code := CodePoint.toNat_ofNat (by omega)
  rw [List.flatMap_singleton, CodePoint.units_eq_singleton (by omega), hnat]

theorem number_lt (a b c d : HexDigit) : HexDigit.number [a, b, c, d] < 0x10000 := by
  have ha := hexDigit?_lt a.isDigit
  have hb := hexDigit?_lt b.isDigit
  have hc := hexDigit?_lt c.isDigit
  have hd := hexDigit?_lt d.isDigit
  simp only [HexDigit.number, List.foldl_cons, List.foldl_nil]
  omega

theorem isWhole_singleton {point : CodePoint} (h : escape.reading = [point]) :
    escape.IsWhole ↔ point.is (fun _ => true) = true := by
  unfold IsWhole
  rw [h]
  exact List.forall_mem_singleton

/-- An escape that stands for fewer units than it has characters is read as too many units, if it is
read as its characters. -/
theorem length_value_lt (h : escape.reading = escape.behind.map .char)
    (hlength : escape.value.length < escape.behind.length) : escape.value.length < escape.readUnits.length := by
  have hle := CodePoint.length_le_length_units escape.reading
  rw [h, List.length_map] at hle
  unfold readUnits
  rw [h]
  exact Nat.lt_of_lt_of_le hlength hle

/-- An escape is read as the units that it stands for, or else as others, and no fewer of them. -/
theorem readUnits_cases (escape : Escape) :
    escape.readUnits = escape.value ∧ (escape.IsRead ↔ escape.IsWhole) ∨
    escape.readUnits ≠ escape.value ∧ escape.value.length ≤ escape.readUnits.length ∧ ¬ escape.IsRead := by
  have hlong : escape.reading = escape.behind.map .char → escape.value.length < escape.behind.length →
      escape.readUnits ≠ escape.value ∧ escape.value.length ≤ escape.readUnits.length := by
    intro hreading hlength
    have hlt := length_value_lt hreading hlength
    exact ⟨fun heq => Nat.lt_irrefl _ (heq ▸ hlt), Nat.le_of_lt hlt⟩
  cases escape with
  | single letter code h =>
    have hcodes : ∀ pair ∈ singleEscapes, pair.2 < 0x80 ∧ (pair.1 = 'v' → pair.2 = 0x0B) := by decide
    obtain ⟨hcode, hv⟩ := hcodes _ h
    by_cases hletter : letter = 'v'
    · have hreading : (single letter code h).reading = [.char 'v'] := if_pos hletter
      have hunits : (single letter code h).readUnits = [0x76] := congrArg (List.flatMap CodePoint.units) hreading
      rw [hunits]
      refine .inr ⟨?_, Nat.le_refl _, fun hread => hread hletter⟩
      rw [show (single letter code h).value = [0x0B] from congrArg (fun code => [code]) (hv hletter)]
      decide
    · have hreading : (single letter code h).reading = [.ofNat code] := if_neg hletter
      refine .inl ⟨?_, iff_of_true hletter ?_⟩
      · unfold readUnits
        rw [hreading, units_ofNat (Nat.lt_trans hcode (by decide))]
        rfl
      · exact (isWhole_singleton hreading).mpr (CodePoint.is_ofNat_iff.mpr (by simp only at hcode; omega))
  | itself c h => exact .inl ⟨List.flatMap_singleton _ _, iff_of_true trivial ((isWhole_singleton rfl).mpr rfl)⟩
  | nul => exact .inr ⟨by decide, by decide, id⟩
  | byte high low =>
    obtain ⟨hne, hle⟩ := hlong rfl (show 1 < 3 by decide)
    exact .inr ⟨hne, hle, id⟩
  | unit a b c d =>
    refine .inl ⟨units_ofNat (number_lt a b c d), ?_⟩
    exact CodePoint.is_ofNat_iff.symm.trans (isWhole_singleton rfl).symm
  | codePoint digits h hlast =>
    have hlength : (codePoint digits h hlast).value.length < (codePoint digits h hlast).behind.length := by
      have hunits := (CodePoint.ofNat (HexDigit.number digits)).length_units
      have hdigits := List.length_pos_iff.mpr h
      simp only [value, behind, List.length_cons, List.length_append, List.length_map, List.length_nil]
      omega
    obtain ⟨hne, hle⟩ := hlong rfl hlength
    exact .inr ⟨hne, hle, id⟩
  | continuation ending =>
    obtain ⟨hne, hle⟩ := hlong rfl (by cases ending <;> decide)
    exact .inr ⟨hne, hle, id⟩

theorem length_value_le (escape : Escape) : escape.value.length ≤ escape.readUnits.length := by
  rcases escape.readUnits_cases with ⟨heq, -⟩ | ⟨-, hle, -⟩
  · exact Nat.le_of_eq (congrArg List.length heq).symm
  · exact hle

theorem isRead_iff : escape.IsRead ↔ escape.readUnits = escape.value ∧ escape.IsWhole := by
  rcases escape.readUnits_cases with ⟨heq, hread⟩ | ⟨hne, -, hread⟩
  · exact hread.trans (and_iff_right heq).symm
  · exact iff_of_false hread fun ⟨heq, _⟩ => hne heq

end Escape

/-! ## §5. Literals -/

/-- A part of a string literal. -/
inductive LiteralPart where
  | plain (cs : List Char)
  | escaped (escape : Escape)

namespace LiteralPart

/-- The kind of node that the part is. -/
def kind : LiteralPart → String
  | plain _ => "string_fragment"
  | escaped _ => "escape_sequence"

/-- How the part is written. -/
def spelling : LiteralPart → List Char
  | plain cs => cs
  | escaped escape => '\\' :: escape.behind

/-- The units that the part stands for. -/
def value : LiteralPart → List Nat
  | plain cs => (Text.ofChars cs).units
  | escaped escape => escape.value

/-- What the part is read as. -/
def reading : LiteralPart → List CodePoint
  | plain cs => cs.map .char
  | escaped escape => escape.reading

/-- The part is read as what it stands for. -/
def IsRead : LiteralPart → Prop
  | plain _ => True
  | escaped escape => escape.IsRead

theorem length_value_le (piece : LiteralPart) :
    piece.value.length ≤ (piece.reading.flatMap CodePoint.units).length := by
  cases piece with
  | plain cs => exact Nat.le_refl _
  | escaped escape => exact escape.length_value_le

theorem isRead_iff {piece : LiteralPart} : piece.IsRead ↔
    piece.reading.flatMap CodePoint.units = piece.value ∧
      ∀ point ∈ piece.reading, point.is (fun _ => true) = true := by
  cases piece with
  | plain cs =>
    refine iff_of_true trivial ⟨rfl, fun point hpoint => ?_⟩
    obtain ⟨c, -, rfl⟩ := List.mem_map.mp hpoint
    rfl
  | escaped escape => exact Escape.isRead_iff

end LiteralPart

/-- The node is the string literal of the parts. -/
structure IsLiteral (source : String) (node : Node) (pieces : List LiteralPart) : Prop where
  kind : node.kind = "string"
  text : ∃ quote ∈ ['"', '\''],
    (node.text source).toList = quote :: (pieces.flatMap LiteralPart.spelling ++ [quote])
  parts : List.Forall₂ (fun part piece => part.kind = piece.kind ∧ (part.text source).toList = piece.spelling)
    node.namedChildren pieces

section Literals

variable {source : String} {node : Node} {pieces : List LiteralPart}

theorem partPoints_eq {part : Node} {piece : LiteralPart} (hkind : part.kind = piece.kind)
    (htext : (part.text source).toList = piece.spelling) : partPoints source part = piece.reading := by
  unfold partPoints
  rw [hkind, htext]
  cases piece with
  | plain cs => rfl
  | escaped escape => exact escapePoints_eq escape

/-- **What a literal is read as**: what its parts are read as. -/
theorem IsLiteral.specifierOf_eq (h : IsLiteral source node pieces) :
    specifierOf source node = ⟨pieces.flatMap LiteralPart.reading⟩ := by
  have hpoints : node.namedChildren.flatMap (partPoints source) = pieces.flatMap LiteralPart.reading := by
    have hparts := h.parts
    generalize node.namedChildren = children at hparts
    clear h
    induction hparts with
    | nil => rfl
    | cons hpart _ ih => rw [List.flatMap_cons, List.flatMap_cons, ih, partPoints_eq hpart.1 hpart.2]
  unfold specifierOf
  split
  · next hempty =>
    -- between the quotes there is nothing
    have hnone := List.isEmpty_iff.mp hempty
    have hparts := h.parts
    rw [hnone, List.forall₂_nil_left_iff] at hparts
    obtain ⟨quote, -, htext⟩ := h.text
    rw [htext, hparts]
    rfl
  · rw [hpoints]

theorem length_flatMap_le {α β : Type} {f g : α → List β} {xs : List α}
    (hle : ∀ x ∈ xs, (g x).length ≤ (f x).length) : (xs.flatMap g).length ≤ (xs.flatMap f).length := by
  induction xs with
  | nil => exact Nat.le_refl _
  | cons x xs ih =>
    rw [List.flatMap_cons, List.flatMap_cons, List.length_append, List.length_append]
    exact Nat.add_le_add (hle x List.mem_cons_self) (ih fun y hy => hle y (List.mem_cons_of_mem _ hy))

/-- Lists that are as long as others piece by piece are equal to them only piece by piece. -/
theorem eq_of_flatMap_eq {α β : Type} {f g : α → List β} {xs : List α}
    (hle : ∀ x ∈ xs, (g x).length ≤ (f x).length) (h : xs.flatMap f = xs.flatMap g) :
    ∀ x ∈ xs, f x = g x := by
  induction xs with
  | nil => exact nofun
  | cons x xs ih =>
    have hhead := hle x List.mem_cons_self
    have htail := length_flatMap_le fun y hy => hle y (List.mem_cons_of_mem _ hy)
    rw [List.flatMap_cons, List.flatMap_cons] at h
    have hlength := congrArg List.length h
    rw [List.length_append, List.length_append] at hlength
    obtain ⟨hx, hxs⟩ := List.append_inj h (by omega)
    exact List.forall_mem_cons.mpr ⟨hx, ih (fun y hy => hle y (List.mem_cons_of_mem _ hy)) hxs⟩

/-- **When a specifier is the value of its literal**: exactly if each of the escapes is read as what it
stands for. -/
theorem specifierOf_eq_iff {s : String} (h : IsLiteral source node pieces)
    (hvalue : pieces.flatMap LiteralPart.value = (Text.ofString s).units) :
    specifierOf source node = .ofString s ↔ ∀ piece ∈ pieces, piece.IsRead := by
  have hunits : (specifierOf source node).units
      = pieces.flatMap fun piece => piece.reading.flatMap CodePoint.units := by
    rw [h.specifierOf_eq]
    exact List.flatMap_assoc
  rw [Text.eq_ofString_iff, hunits, ← hvalue]
  constructor
  · rintro ⟨heq, hencodable⟩ piece hpiece
    rw [h.specifierOf_eq] at hencodable
    have hwhole := List.all_eq_true.mp hencodable
    refine LiteralPart.isRead_iff.mpr ⟨?_, fun point hpoint => hwhole point (List.mem_flatMap_of_mem hpiece hpoint)⟩
    exact eq_of_flatMap_eq (fun piece _ => piece.length_value_le) heq piece hpiece
  · intro hread
    refine ⟨List.flatMap_congr fun piece hpiece => (LiteralPart.isRead_iff.mp (hread piece hpiece)).1, ?_⟩
    rw [h.specifierOf_eq]
    refine List.all_eq_true.mpr fun point hpoint => ?_
    obtain ⟨piece, hpiece, hmem⟩ := List.mem_flatMap.mp hpoint
    exact (LiteralPart.isRead_iff.mp (hread piece hpiece)).2 point hmem

end Literals

/-! ## §6. Lowered modules -/

section Lower

variable {parser : Parser} {dialect : Dialect} {options : Options} {source s : String}
  {lowered : LoweredModule} {node literal : Node} {parts : List LiteralPart}

/-- **The specifiers of a module.**  The literal of every import, export and call of `import` that is
emitted is collected with what its parts are read as, and this is the value of the literal exactly if
each of its escapes is read as what it stands for. -/
theorem lower_specifier_value (hok : lower parser dialect options source = .ok lowered)
    (hemits : Emits ⟨source, options⟩ (parser dialect source) node)
    (hrecorded : recordedLiteral? ⟨source, options⟩ node = some literal)
    (hliteral : IsLiteral source literal parts) :
    Collects lowered ⟨source, options⟩ node literal ∧
    specifierOf source literal = ⟨parts.flatMap LiteralPart.reading⟩ ∧
    (parts.flatMap LiteralPart.value = (Text.ofString s).units →
      (specifierOf source literal = .ofString s ↔ ∀ part ∈ parts, part.IsRead)) :=
  ⟨collects_of_recorded hok hemits hrecorded, hliteral.specifierOf_eq, specifierOf_eq_iff hliteral⟩

end Lower

/-- A literal of two characters, an escape of the given width and three more characters, from the
eighth character on. -/
def escapedLiteral (width : Nat) : Node :=
  ⟨"string", true, false, 7, 14 + width, some "source",
    [tokenNode "\"" 7 8,
      ⟨"string_fragment", true, false, 8, 10, none, []⟩,
      ⟨"escape_sequence", true, false, 10, 10 + width, none, []⟩,
      ⟨"string_fragment", true, false, 10 + width, 13 + width, none, []⟩,
      tokenNode "\"" (13 + width) (14 + width)]⟩

/-- An import of the literal. -/
def escapedImport (width : Nat) : Node :=
  ⟨"import_statement", true, false, 0, 15 + width, none,
    [tokenNode "import" 0 6, escapedLiteral width, tokenNode ";" (14 + width) (15 + width)]⟩

/-- A program of the import alone. -/
def escapedProgram (width : Nat) : Node :=
  ⟨"program", true, false, 0, 15 + width, none, [escapedImport width]⟩

/-- The digits of the letter `a` behind a backslash. -/
def letterDigits : HexDigit × HexDigit :=
  (⟨'6', 6, rfl⟩, ⟨'1', 1, rfl⟩)

/-- The parts of `"./\u0061.js"`. -/
def unitParts : List LiteralPart :=
  [.plain ['.', '/'], .escaped (.unit ⟨'0', 0, rfl⟩ ⟨'0', 0, rfl⟩ letterDigits.1 letterDigits.2),
    .plain ['.', 'j', 's']]

theorem lower_unitEscape :
    lower (fun _ _ => escapedProgram 6) .typescript {} "import \"./\\u0061.js\";"
      = .ok ⟨"import \"./a.js\";", ["./a.js"], [⟨7, 15, "./a.js"⟩], false⟩ := by
  unfold lower
  rw [String.contains_char_eq, if_neg (by decide)]
  decide +kernel

/-- Four digits are read as the letter that they stand for. -/
theorem lower_specifier_value_unitEscape :
    specifierOf "import \"./\\u0061.js\";" (escapedLiteral 6) = "./a.js" := by
  have hliteral : IsLiteral "import \"./\\u0061.js\";" (escapedLiteral 6) unitParts :=
    ⟨rfl, ⟨'"', by decide, by decide⟩, .cons (by decide) (.cons (by decide) (.cons (by decide) .nil))⟩
  have hemits : Emits ⟨"import \"./\\u0061.js\";", {}⟩ (escapedProgram 6) (escapedImport 6) :=
    .part .self (List.mem_of_getElem? (i := 0) rfl)
  obtain ⟨-, -, hvalue⟩ := lower_specifier_value lower_unitEscape hemits rfl hliteral
  have hescape : (Escape.unit ⟨'0', 0, rfl⟩ ⟨'0', 0, rfl⟩ letterDigits.1 letterDigits.2).IsRead := by
    show ¬ _
    decide
  exact (hvalue (by decide)).mpr (List.forall_mem_cons.mpr ⟨trivial,
    List.forall_mem_cons.mpr ⟨hescape, List.forall_mem_singleton.mpr trivial⟩⟩)

/-- The parts of `"./\x61.js"`. -/
def byteParts : List LiteralPart :=
  [.plain ['.', '/'], .escaped (.byte letterDigits.1 letterDigits.2), .plain ['.', 'j', 's']]

/-- **A specifier that is not the value of its literal.**  The literal stands for `./a.js`, but what is
imported is something else. -/
theorem lower_byteEscape_misread :
    IsLiteral "import \"./\\x61.js\";" (escapedLiteral 4) byteParts ∧
      byteParts.flatMap LiteralPart.value = (Text.ofString "./a.js").units ∧
      lower (fun _ _ => escapedProgram 4) .typescript {} "import \"./\\x61.js\";"
        = .ok ⟨"import \"./x61.js\";", ["./x61.js"], [⟨7, 17, "./x61.js"⟩], false⟩ := by
  refine ⟨⟨rfl, ⟨'"', by decide, by decide⟩, .cons (by decide) (.cons (by decide) (.cons (by decide) .nil))⟩,
    by decide, ?_⟩
  unfold lower
  rw [String.contains_char_eq, if_neg (by decide)]
  decide +kernel

end Lowering

end LivePreview
