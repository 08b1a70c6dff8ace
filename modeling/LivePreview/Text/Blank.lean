/-
  LivePreview.Text.Blank
  ──────────────────────
  **Blank characters, line breaks, and trimming.**

  A blank is a character of white space in the wide sense: the property
  *White_Space* together with the four information separators.  A line break is a
  blank that ends a line; it is a narrower class, and a wider one than the line
  feed alone.
-/
import LivePreview.Text.Basic

namespace LivePreview.Text

/-- The character is white space. -/
def isBlank (c : Char) : Bool :=
  inRanges [(0x09, 0x0D), (0x1C, 0x20), (0x85, 0x85), (0xA0, 0xA0), (0x1680, 0x1680),
    (0x2000, 0x200A), (0x2028, 0x2029), (0x202F, 0x202F), (0x205F, 0x205F),
    (0x3000, 0x3000)] c.toNat

/-- The six blanks of ASCII that numerals may be padded with. -/
def isAsciiBlank (c : Char) : Bool :=
  inRanges [(0x09, 0x0D), (0x20, 0x20)] c.toNat

/-- The character ends a line. -/
def isLineBreak (c : Char) : Bool :=
  inRanges [(0x0A, 0x0D), (0x1C, 0x1E), (0x85, 0x85), (0x2028, 0x2029)] c.toNat

/-- Drop the members of a class from the end. -/
def dropEndWhile {α : Type} (p : α → Bool) (xs : List α) : List α :=
  (xs.reverse.dropWhile p).reverse

/-- Drop the characters of a class from both ends. -/
def trimWhile (p : Char → Bool) (cs : List Char) : List Char :=
  dropEndWhile p (cs.dropWhile p)

/-- Drop the blanks from both ends. -/
def trim (cs : List Char) : List Char :=
  trimWhile isBlank cs

end LivePreview.Text
