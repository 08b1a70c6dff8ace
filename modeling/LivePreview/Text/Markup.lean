/-
  LivePreview.Text.Markup
  ───────────────────────
  **Text inside an HTML page.**

  Five characters have a meaning of their own in markup or in an attribute value;
  `escape` writes each of them as a character reference.
-/
import LivePreview.Text.Basic

namespace LivePreview.Text.Markup

/-- A character as it stands in markup. -/
def escapeChar (c : Char) : List Char :=
  if c == '&' then "&amp;".toList
  else if c == '<' then "&lt;".toList
  else if c == '>' then "&gt;".toList
  else if c == '"' then "&quot;".toList
  else if c == '\'' then "&#x27;".toList
  else [c]

/-- A code point as it stands in markup. -/
def escapePoint : CodePoint → List CodePoint
  | .char c => (escapeChar c).map .char
  | point => [point]

/-- The text as it stands in markup or between the quotes of an attribute. -/
def escape (text : Text) : Text :=
  ⟨text.points.flatMap escapePoint⟩

end LivePreview.Text.Markup
