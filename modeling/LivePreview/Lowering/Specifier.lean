/-
  LivePreview.Lowering.Specifier
  ──────────────────────────────
  **How a string literal spells an import specifier.**

  The parser cuts a string literal into stretches of plain text and escape
  sequences.  An escape that JSON knows is read as in JSON; of any other escape the
  backslash is dropped.  Each escape is read on its own, so that one may leave half of
  a surrogate pair, and two such halves do not make up a character.
-/
import LivePreview.Json.Reader
import LivePreview.Syntax.Node

namespace LivePreview.Lowering

open LivePreview.Syntax (Node)

/-- The code points that an escape sequence stands for. -/
def escapePoints (cs : List Char) : List CodePoint :=
  match Json.readParts [] (cs.map .char ++ [.char '"']) with
  | .ok (parts, []) => parts.map Text.Part.alone
  | _ => (cs.drop 1).map .char

/-- The code points that a part of a literal stands for. -/
def partPoints (source : String) (part : Node) : List CodePoint :=
  let cs := (part.text source).toList
  if part.kind == "escape_sequence" then escapePoints cs else cs.map .char

/-- Take the first and the last character off. -/
def withoutEnds (cs : List Char) : List Char :=
  (cs.drop 1).dropLast

/-- The specifier that a string literal spells. -/
def specifierOf (source : String) (node : Node) : Text :=
  if node.namedChildren.isEmpty then .ofChars (withoutEnds (node.text source).toList)
  else ⟨node.namedChildren.flatMap (partPoints source)⟩

end LivePreview.Lowering
