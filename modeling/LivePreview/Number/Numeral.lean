/-
  LivePreview.Number.Numeral
  ──────────────────────────
  **Reading whole numbers.**

  The decimal digits of a script are ten consecutive characters, so a table of
  the zeros (`digitZeros`) decides which characters are digits and what they are
  worth (`decimalDigit?`).

  A numeral may be padded with blanks, carry a sign, use the digits of any script,
  and have single low lines between its digits.  `readDecimal?` takes base ten
  only.  `readLiteral?` also takes the bases two, eight and sixteen behind their
  marks, and then no decimal numeral other than zero may start with a zero.

  Decimal text is limited to `maxDigits` digits in both directions: a longer
  numeral is no number (`readDecimal?`, `readLiteral?`), and a number with more
  digits has no text (`decimalText?`).
-/
import LivePreview.Text.Blank

namespace LivePreview.Number

/-! ## §1. Digits -/

/-- The zero of each run of ten decimal digits. -/
def digitZeros : List Nat := [
  0x0030, 0x0660, 0x06F0, 0x07C0, 0x0966, 0x09E6, 0x0A66, 0x0AE6, 0x0B66, 0x0BE6, 0x0C66, 0x0CE6,
  0x0D66, 0x0DE6, 0x0E50, 0x0ED0, 0x0F20, 0x1040, 0x1090, 0x17E0, 0x1810, 0x1946, 0x19D0, 0x1A80,
  0x1A90, 0x1B50, 0x1BB0, 0x1C40, 0x1C50, 0xA620, 0xA8D0, 0xA900, 0xA9D0, 0xA9F0, 0xAA50, 0xABF0,
  0xFF10, 0x104A0, 0x10D30, 0x11066, 0x110F0, 0x11136, 0x111D0, 0x112F0, 0x11450, 0x114D0,
  0x11650, 0x116C0, 0x11730, 0x118E0, 0x11950, 0x11C50, 0x11D50, 0x11DA0, 0x16A60, 0x16AC0,
  0x16B50, 0x1D7CE, 0x1D7D8, 0x1D7E2, 0x1D7EC, 0x1D7F6, 0x1E140, 0x1E2F0, 0x1E950, 0x1FBF0]

/-- The value of a decimal digit of any script. -/
def decimalDigit? (c : Char) : Option Nat :=
  match digitZeros.find? fun first => first ≤ c.toNat && c.toNat < first + 10 with
  | some first => some (c.toNat - first)
  | none => none

/-- The value of a digit in a base of at most thirty-six, in ASCII and either case. -/
def digitInBase? (base : Nat) (c : Char) : Option Nat :=
  let value? :=
    if c.isDigit then some (c.toNat - '0'.toNat)
    else if c.isLower then some (c.toNat - 'a'.toNat + 10)
    else if c.isUpper then some (c.toNat - 'A'.toNat + 10)
    else none
  value?.filter (· < base)

end LivePreview.Number

namespace LivePreview.Number

open LivePreview.Text

/-! ## §2. Numerals -/

/-- The longest decimal text, in digits, that is read or written. -/
def maxDigits : Nat := 4300

/-- A numeral in ASCII: blanks and digits of other scripts become a space and an ASCII digit,
and any other character beyond ASCII one that no numeral holds. -/
def plainNumeral (cs : List Char) : List Char :=
  cs.map fun c =>
    if c.toNat < 0x7F then c
    else if isBlank c then ' '
    else match decimalDigit? c with
      | some d => Char.ofNat ('0'.toNat + d)
      | none => '?'

/-- The optional sign in front of a numeral: whether it is a minus, and the rest. -/
def splitSign : List Char → Bool × List Char
  | '-' :: cs => (true, cs)
  | '+' :: cs => (false, cs)
  | cs => (false, cs)

/-- The digits of a numeral without sign, single low lines standing only between two of them. -/
def digits? (base : Nat) : List Char → Option (List Nat)
  | [] => none
  | [c] => (digitInBase? base c).map ([·])
  | c :: '_' :: cs => do
    let d ← digitInBase? base c
    let ds ← digits? base cs
    return d :: ds
  | c :: cs => do
    let d ← digitInBase? base c
    let ds ← digits? base cs
    return d :: ds

/-- The number with the given digits. -/
def ofDigits (base : Nat) (ds : List Nat) : Nat :=
  ds.foldl (fun n d => n * base + d) 0

/-- The number that a decimal numeral without sign stands for. -/
def unsignedDecimal? (cs : List Char) : Option Nat := do
  let ds ← digits? 10 cs
  if ds.length ≤ maxDigits then some (ofDigits 10 ds) else none

/-- Give a number its sign. -/
def signed (negative : Bool) (n : Nat) : Int :=
  if negative then -(n : Int) else n

/-- Read a padded decimal numeral with an optional sign. -/
def readDecimal? (text : String) : Option Int :=
  let (negative, cs) := splitSign (trimWhile isAsciiBlank (plainNumeral text.toList))
  (unsignedDecimal? cs).map (signed negative)

/-- The digits behind the mark of a base; one low line may stand in front of them. -/
def marked? (base : Nat) (cs : List Char) : Option Nat :=
  (digits? base (match cs with
    | '_' :: rest => rest
    | _ => cs)).map (ofDigits base)

/-- The number that a literal without sign stands for. -/
def unsignedLiteral? : List Char → Option Nat
  | '0' :: 'x' :: cs | '0' :: 'X' :: cs => marked? 16 cs
  | '0' :: 'o' :: cs | '0' :: 'O' :: cs => marked? 8 cs
  | '0' :: 'b' :: cs | '0' :: 'B' :: cs => marked? 2 cs
  | '0' :: cs => (unsignedDecimal? ('0' :: cs)).filter (· == 0)
  | cs => unsignedDecimal? cs

/-- Read a padded literal of base two, eight, ten or sixteen with an optional sign. -/
def readLiteral? (text : String) : Option Int :=
  let (negative, cs) := splitSign (trimWhile isAsciiBlank (plainNumeral text.toList))
  (unsignedLiteral? cs).map (signed negative)

/-- The decimal text of a number; `none` if it has too many digits. -/
def decimalText? (n : Int) : Option String :=
  if n.natAbs < Nat.pow 10 maxDigits then some (toString n) else none

end LivePreview.Number
