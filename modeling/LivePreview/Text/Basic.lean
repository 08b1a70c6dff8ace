/-
  LivePreview.Text.Basic
  ──────────────────────
  **Texts.**

  A text is a list of code points, and a code point is a character or half of a surrogate
  pair.  A high surrogate and a low one behind it make up one character where a text is
  read unit by unit (`ofParts`).  A half that is left alone is no character, so that a
  text with one is no string and cannot be expressed in bytes (`string?`).

  Texts are ordered by the codes of their code points, and the order is lawful: two texts
  that compare as equal are equal.

  The tables of character properties in this folder are ascending lists of closed
  ranges; `inRanges` is the one question that is asked of them.
-/

namespace LivePreview

/-! ## §1. Code points -/

/-- A character, or half of a surrogate pair. -/
inductive CodePoint where
  | char (c : Char)
  /-- A surrogate, by how far its code lies behind that of the first one. -/
  | half (offset : Fin 0x800)
  deriving DecidableEq, Repr, Inhabited

namespace CodePoint

instance : Coe Char CodePoint := ⟨.char⟩

/-- The code of the first surrogate. -/
def firstHalf : Nat := 0xD800

/-- The code of a code point. -/
def toNat : CodePoint → Nat
  | .char c => c.toNat
  | .half offset => firstHalf + offset

/-- The code point with a code; a code beyond the last one stands for the character zero. -/
def ofNat (code : Nat) : CodePoint :=
  if h : firstHalf ≤ code ∧ code < firstHalf + 0x800 then
    .half ⟨code - firstHalf, by omega⟩
  else .char (Char.ofNat code)

/-- The character that a code point is, if it is one. -/
def char? : CodePoint → Option Char
  | .char c => some c
  | .half _ => none

/-- The code point is a character of a class. -/
def is (p : Char → Bool) : CodePoint → Bool
  | .char c => p c
  | .half _ => false

/-- The code of a character is that of no surrogate. -/
theorem toNat_char_ne_toNat_half (c : Char) (offset : Fin 0x800) :
    (char c).toNat ≠ (half offset).toNat := by
  have := offset.isLt
  have : c.toNat < 0xD800 ∨ 0xDFFF < c.toNat ∧ c.toNat < 0x110000 := c.valid
  simp only [toNat, firstHalf]
  omega

/-- Code points with one code are equal. -/
theorem eq_of_toNat_eq {a b : CodePoint} (h : a.toNat = b.toNat) : a = b := by
  match a, b with
  | .char c, .char d => exact congrArg char (Char.toNat_inj.1 h)
  | .char c, .half offset => exact absurd h (toNat_char_ne_toNat_half c offset)
  | .half offset, .char c => exact absurd h.symm (toNat_char_ne_toNat_half c offset)
  | .half i, .half j => exact congrArg half (Fin.ext (Nat.add_left_cancel h))

instance : Ord CodePoint := ⟨fun a b => compare a.toNat b.toNat⟩

instance : Std.TransOrd CodePoint :=
  inferInstanceAs (Std.TransCmp (compareOn toNat))

instance : Std.LawfulEqOrd CodePoint where
  eq_of_compare {a b} h :=
    eq_of_toNat_eq (Std.LawfulEqOrd.eq_of_compare (show compare a.toNat b.toNat = .eq from h))

end CodePoint

/-! ## §2. Texts -/

/-- A text. -/
@[ext] structure Text where
  points : List CodePoint
  deriving DecidableEq, Repr, Inhabited

namespace Text

/-- The text of some characters. -/
def ofChars (cs : List Char) : Text :=
  ⟨cs.map .char⟩

/-- The text that a string is. -/
def ofString (s : String) : Text :=
  ofChars s.toList

instance : Coe String Text := ⟨ofString⟩

instance : Append Text := ⟨fun a b => ⟨a.points ++ b.points⟩⟩

instance : Ord Text := ⟨fun a b => compare a.points b.points⟩

instance : Std.TransOrd Text :=
  inferInstanceAs (Std.TransCmp (compareOn points))

instance : Std.LawfulEqOrd Text where
  eq_of_compare {a b} h :=
    Text.ext (Std.LawfulEqOrd.eq_of_compare (show compare a.points b.points = .eq from h))

/-- The number of code points. -/
def length (text : Text) : Nat :=
  text.points.length

/-- The text has no code points. -/
def isEmpty (text : Text) : Bool :=
  text.points.isEmpty

/-- The text begins with another one. -/
def startsWith (text start : Text) : Bool :=
  start.points.isPrefixOf text.points

/-- The text without its first code points. -/
def drop (text : Text) (count : Nat) : Text :=
  ⟨text.points.drop count⟩

/-- The texts one behind the other, with a separator between them. -/
def intercalate (separator : Text) (texts : List Text) : Text :=
  ⟨separator.points.intercalate (texts.map points)⟩

/-! ## §3. Texts and strings -/

/-- The characters of a text, which holds no halves. -/
def chars? (text : Text) : Option (List Char) :=
  text.points.mapM CodePoint.char?

/-- The string that a text is, if it holds no halves. -/
def string? (text : Text) : Option String :=
  text.chars?.map String.ofList

/-- The text can be expressed in bytes. -/
def isEncodable (text : Text) : Bool :=
  text.points.all (·.is fun _ => true)

/-- The character that stands for a half where a text has to be expressed in bytes. -/
def replacement : Char := '\uFFFD'

/-- The text as a string, with a replacement in place of every half. -/
def withoutHalves (text : Text) : String :=
  String.ofList (text.points.map fun point => point.char?.getD replacement)

/-! ## §4. Units -/

/-- The two codes are a high surrogate and its low partner. -/
def arePartners (high low : Nat) : Bool :=
  0xD800 ≤ high && high ≤ 0xDBFF && 0xDC00 ≤ low && low ≤ 0xDFFF

/-- What a text is read from. -/
inductive Part where
  /-- A code point that stands for itself. -/
  | point (p : CodePoint)
  /-- A code, which together with the next one may be a surrogate pair. -/
  | unit (code : Nat)
  deriving DecidableEq, Repr, Inhabited

/-- The code point of a part on its own. -/
def Part.alone : Part → CodePoint
  | .point p => p
  | .unit code => .ofNat code

/-- The code points of parts, in which a high and a low surrogate make up one character. -/
def joinParts : List Part → List CodePoint
  | [] => []
  | .unit high :: .unit low :: rest =>
    if arePartners high low then
      .char (Char.ofNat (0x10000 + (high - 0xD800) * 0x400 + (low - 0xDC00))) :: joinParts rest
    else .ofNat high :: joinParts (.unit low :: rest)
  | part :: rest => part.alone :: joinParts rest

/-- The text of some parts, in which a high and a low surrogate make up one character. -/
def ofParts (parts : List Part) : Text :=
  ⟨joinParts parts⟩

end Text

end LivePreview

namespace LivePreview.Text

/-! ## §5. Tables of ranges -/

/-- The code point lies in one of the closed ranges. -/
def inRanges (table : List (Nat × Nat)) (code : Nat) : Bool :=
  table.any fun (first, last) => first ≤ code && code ≤ last

end LivePreview.Text

namespace LivePreview.Text

/-! ## §6. Hexadecimal escapes of a fixed width -/

/-- The number in lower-case hexadecimal, padded with zeros to at least `width` digits. -/
def hex (width n : Nat) : List Char :=
  let digits := Nat.toDigits 16 n
  List.replicate (width - digits.length) '0' ++ digits

/-- The value of a hexadecimal digit. -/
def hexDigit? (c : Char) : Option Nat :=
  if c.isDigit then some (c.toNat - '0'.toNat)
  else if 'a' ≤ c && c ≤ 'f' then some (c.toNat - 'a'.toNat + 10)
  else if 'A' ≤ c && c ≤ 'F' then some (c.toNat - 'A'.toNat + 10)
  else none

end LivePreview.Text
