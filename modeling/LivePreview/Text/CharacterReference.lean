/-
  LivePreview.Text.CharacterReference
  ───────────────────────────────────
  **Decoding the character references of a text.**

  A reference is numeric, decimal or hexadecimal, or named, and its semicolon may
  be missing.  A numeric one is decoded with the standard's exceptions: codes of
  the upper control range mean the characters that an old code page had there,
  codes that are no character mean the replacement character, and the remaining
  controls and non-characters mean nothing at all.  A named one that is not in the
  list of names is read as the longest listed name that it starts with, and stays
  as it is if there is none.  A decimal one may have too many digits to be read
  (`Overlong`).
-/
import LivePreview.Number.Numeral
import LivePreview.Text.Basic
import LivePreview.Text.ReferenceName

namespace LivePreview.Text.CharacterReference

/-! ## §1. Numeric references -/

/-- What the codes from 0x80 to 0x9F stand for. -/
def upperControls : List Nat := [
  0x20AC, 0x0081, 0x201A, 0x0192, 0x201E, 0x2026, 0x2020, 0x2021, 0x02C6, 0x2030, 0x0160, 0x2039,
  0x0152, 0x008D, 0x017D, 0x008F, 0x0090, 0x2018, 0x2019, 0x201C, 0x201D, 0x2022, 0x2013, 0x2014,
  0x02DC, 0x2122, 0x0161, 0x203A, 0x0153, 0x009D, 0x017E, 0x0178]

/-- The codes that stand for nothing: controls, and the code points that are no character. -/
def isDropped (code : Nat) : Bool :=
  inRanges [(0x01, 0x08), (0x0B, 0x0B), (0x0E, 0x1F), (0x7F, 0x9F), (0xFDD0, 0xFDEF)] code
    || (0xFFFE ≤ code && 0xFFFE ≤ code % 0x10000)

/-- The characters that a numeric reference stands for. -/
def ofCode (code : Nat) : List Char :=
  if code == 0 then ['\uFFFD']
  else if 0x80 ≤ code && code ≤ 0x9F then [Char.ofNat (upperControls.getD (code - 0x80) code)]
  else if (0xD800 ≤ code && code ≤ 0xDFFF) || 0x10FFFF < code then ['\uFFFD']
  else if isDropped code then []
  else [Char.ofNat code]

/-! ## §2. Named references -/

/-- The characters of a listed name. -/
def ofName? (name : List Char) : Option (List Char) :=
  (referenceNames.lookup (String.ofList name)).map (·.map Char.ofNat)

/-- The longest listed beginning of a name, from `length` characters down to two, decoded and
followed by the rest of the name. -/
def longestName? (name : List Char) : Nat → Option (List Char)
  | 0 | 1 => none
  | length + 2 =>
    match ofName? (name.take (length + 2)) with
    | some cs => some (cs ++ name.drop (length + 2))
    | none => longestName? name (length + 1)

/-- The characters that stand for `&` followed by `name`. -/
def ofName (name : List Char) : List Char :=
  match ofName? name with
  | some cs => cs
  | none => (longestName? name (name.length - 1)).getD ('&' :: name)

/-! ## §3. References in a text -/

/-- A character that may stand in a name. -/
def isNameChar (c : Char) : Bool :=
  !(['\t', '\n', '\x0c', ' ', '<', '&', '#', ';'].contains c)

/-- The semicolon at the front of a text, if it stands there. -/
def semicolon : List Char → List Char
  | ';' :: _ => [';']
  | _ => []

/-- The value of a list of digits in a base. -/
def digitsValue (base : Nat) (digits : List Char) : Nat :=
  digits.foldl (fun n c => n * base + (hexDigit? c).getD 0) 0

/-- A decimal reference with too many digits to be read. -/
structure Overlong where
  digits : Nat
  deriving DecidableEq, Repr

/-- What a reference stands for, and how many characters it takes behind its ampersand. -/
abbrev Reading := List Char × Nat

/-- Read a decimal reference, given what follows its number sign; `none` if it has no digits. -/
def readDecimal? (rest : List Char) : Option (Except Overlong Reading) :=
  let digits := rest.takeWhile Char.isDigit
  if digits.isEmpty then none
  else if Number.maxDigits < digits.length then some (.error ⟨digits.length⟩)
  else some (.ok (ofCode (digitsValue 10 digits),
    1 + digits.length + (semicolon (rest.drop digits.length)).length))

/-- Read a hexadecimal reference, given what follows its number sign; `none` if it has no
digits. -/
def readHexadecimal? : List Char → Option Reading
  | [] => none
  | x :: rest =>
    let digits := rest.takeWhile fun c => (hexDigit? c).isSome
    if (x == 'x' || x == 'X') && !digits.isEmpty then
      some (ofCode (digitsValue 16 digits),
        2 + digits.length + (semicolon (rest.drop digits.length)).length)
    else none

/-- Read a named reference; `none` if it has no name. -/
def readNamed? (cs : List Char) : Option Reading :=
  let name := (cs.takeWhile isNameChar).take 32
  if name.isEmpty then none
  else
    let whole := name ++ semicolon (cs.drop name.length)
    some (ofName whole, whole.length)

/-- Read the reference that follows an ampersand; `none` if no reference follows. -/
def read? : List Char → Option (Except Overlong Reading)
  | '#' :: rest => readDecimal? rest <|> (readHexadecimal? rest).map .ok
  | cs => (readNamed? cs).map .ok

/-- Put characters in front of a text that is decoded. -/
def prepend (cs : List Char) : Except Overlong (List Char) → Except Overlong (List Char)
  | .ok rest => .ok (cs ++ rest)
  | .error e => .error e

/-- Decode a text; the first `skip` characters belong to the reference read last. -/
def unescapeFrom : Nat → List Char → Except Overlong (List Char)
  | _, [] => .ok []
  | skip + 1, _ :: cs => unescapeFrom skip cs
  | 0, c :: cs =>
    match if c == '&' then read? cs else none with
    | some (.ok (decoded, length)) => prepend decoded (unescapeFrom length cs)
    | some (.error e) => .error e
    | none => prepend [c] (unescapeFrom 0 cs)

/-- The text with its character references decoded. -/
def unescape (s : String) : Except Overlong String :=
  (unescapeFrom 0 s.toList).map String.ofList

end LivePreview.Text.CharacterReference
