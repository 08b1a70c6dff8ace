/-
  LivePreview.Json.Shown
  ──────────────────────
  **How messages show a value.**

  A message that names an unexpected value shows it with capitalised words for
  null and the truth values, quoted texts (`Text.quoted`), and brackets and braces
  around the items of arrays and objects (`shown`), or names only what kind of value
  it is (`kindWord`).
-/
import LivePreview.Json.Basic
import LivePreview.Number.Shortest
import LivePreview.Text.Quoted

namespace LivePreview.Json

open LivePreview.Text (quoted)

/-- The word of a message for what kind of value this is. -/
def kindWord : Json → String
  | .null => "NoneType"
  | .bool _ => "bool"
  | .int _ => "int"
  | .double _ => "float"
  | .text _ => "str"
  | .array _ => "list"
  | .object _ => "dict"

mutual

/-- The value as a message shows it. -/
def shown : Json → String
  | .null => "None"
  | .bool b => if b then "True" else "False"
  | .int n => toString n
  | .double x => x.text
  | .text s => quoted s
  | .array items => "[" ++ ", ".intercalate (shownItems items) ++ "]"
  | .object fields => "\x7b" ++ ", ".intercalate (shownFields fields) ++ "\x7d"

/-- The items of an array as a message shows them. -/
def shownItems : List Json → List String
  | [] => []
  | item :: items => shown item :: shownItems items

/-- The fields of an object as a message shows them. -/
def shownFields : Fields → List String
  | [] => []
  | (key, value) :: fields => (quoted key ++ ": " ++ shown value) :: shownFields fields

end

end LivePreview.Json
