/-
  LivePreview.Json.Writer
  ───────────────────────
  **Writing JSON values.**

  A text stands between double quotes; the quote, the backslash and the control
  characters are escaped.  `Charset.ascii` also escapes everything beyond the
  printable characters of ASCII, as UTF-16 units, while `Charset.unicode` leaves it
  as it is.  A value is written on one line (`line`), or with the items of arrays
  and objects on lines of their own, indented by two spaces a level (`page`).
-/
import LivePreview.Json.Basic
import LivePreview.Number.Shortest
import LivePreview.Text.Basic

namespace LivePreview.Json

open LivePreview.Text (hex intercalate)

/-- Which characters are written as they are. -/
inductive Charset where
  /-- The printable characters of ASCII. -/
  | ascii
  /-- Every character that is no control. -/
  | unicode
  deriving DecidableEq, Repr

/-! ## §1. Texts -/

/-- The escape of one UTF-16 unit. -/
def unitEscape (unit : Nat) : List Char :=
  '\\' :: 'u' :: hex 4 unit

/-- The UTF-16 units of a character. -/
def units (c : Char) : List Nat :=
  if c.toNat < 0x10000 then [c.toNat]
  else [0xD800 + (c.toNat - 0x10000) / 0x400, 0xDC00 + (c.toNat - 0x10000) % 0x400]

/-- A character as it stands inside a text. -/
def escapeChar (charset : Charset) (c : Char) : List Char :=
  if c == '"' then ['\\', '"']
  else if c == '\\' then ['\\', '\\']
  else if c == '\n' then ['\\', 'n']
  else if c == '\r' then ['\\', 'r']
  else if c == '\t' then ['\\', 't']
  else if c == '\x08' then ['\\', 'b']
  else if c == '\x0c' then ['\\', 'f']
  else if c.toNat < 0x20 then unitEscape c.toNat
  else if charset == .ascii && 0x7E < c.toNat then (units c).flatMap unitEscape
  else [c]

/-- A code point as it stands inside a text in ASCII. -/
def escapePoint : CodePoint → List Char
  | .char c => escapeChar .ascii c
  | point => unitEscape point.toNat

/-- The text as a JSON literal in ASCII. -/
def literal (text : Text) : String :=
  String.ofList ('"' :: text.points.flatMap escapePoint ++ ['"'])

/-- A code point as it stands inside a text where every character may stand. -/
def keepPoint : CodePoint → List CodePoint
  | .char c => (escapeChar .unicode c).map .char
  | point => [point]

/-- The text as a JSON literal. -/
def quote (charset : Charset) (text : Text) : Text :=
  match charset with
  | .ascii => literal text
  | .unicode => "\"" ++ ⟨text.points.flatMap keepPoint⟩ ++ "\""

/-! ## §2. Values -/

/-- A number as it stands in JSON, which has words for not-a-number and infinity here. -/
def doubleText (x : Number.Binary64) : String :=
  x.textWith "NaN" "Infinity"

mutual

/-- The value on one line. -/
def line (charset : Charset) : Json → Text
  | .null => "null"
  | .bool b => if b then "true" else "false"
  | .int n => toString n
  | .double x => doubleText x
  | .text s => quote charset s
  | .array items => "[" ++ intercalate ", " (lineItems charset items) ++ "]"
  | .object fields => "\x7b" ++ intercalate ", " (lineFields charset fields) ++ "\x7d"

/-- The items of an array, each on one line. -/
def lineItems (charset : Charset) : List Json → List Text
  | [] => []
  | item :: items => line charset item :: lineItems charset items

/-- The fields of an object, each on one line. -/
def lineFields (charset : Charset) : Fields → List Text
  | [] => []
  | (key, value) :: fields =>
    (quote charset key ++ ": " ++ line charset value) :: lineFields charset fields

end

/-- The start of a line at a level. -/
def margin (level : Nat) : Text :=
  "\n" ++ String.ofList (List.replicate (2 * level) ' ')

/-- Blocks of an array or object between its brackets, each on its own lines. -/
def block (level : Nat) (opening closing : Text) (parts : List Text) : Text :=
  if parts.isEmpty then opening ++ closing
  else opening ++ margin (level + 1) ++ intercalate ("," ++ margin (level + 1)) parts
    ++ margin level ++ closing

mutual

/-- The value in ASCII, its items on lines of their own. -/
def page (level : Nat) : Json → Text
  | .array items => block level "[" "]" (pageItems (level + 1) items)
  | .object fields => block level "\x7b" "\x7d" (pageFields (level + 1) fields)
  | value => line .ascii value

/-- The items of an array at a level. -/
def pageItems (level : Nat) : List Json → List Text
  | [] => []
  | item :: items => page level item :: pageItems level items

/-- The fields of an object at a level. -/
def pageFields (level : Nat) : Fields → List Text
  | [] => []
  | (key, value) :: fields =>
    (literal key ++ ": " ++ page level value) :: pageFields level fields

end

end LivePreview.Json
