/-
  LivePreview.Lowering.Parsed
  ───────────────────────────
  **Sources that have been parsed.**

  A parser that runs elsewhere hands over its trees as JSON.  A node is an array of
  six: its kind, its marks, the offsets of its start and its end in bytes, its role in
  its parent or null, and its children.  The marks are letters: `n` for a construct of
  the grammar and `m` for a node that the parser put in.

  Such trees serve as a parser: it looks a source up under its dialect.  A source that is
  not among them counts as one that cannot be parsed.
-/
import LivePreview.Json.Basic
import LivePreview.Lowering.Basic
import LivePreview.Syntax.Node

namespace LivePreview.Syntax.Node

/-! ## §1. Trees as JSON -/

mutual

/-- The tree that a JSON value describes, if it describes one. -/
def ofJson? : Json → Option Node
  | .array [kind, marks, .int start, .int stop, role, .array children] =>
    match kind.string?, marks.string?, ofItems? children with
    | some kind, some marks, some children =>
      some
        { kind, isNamed := marks.contains 'n', isMissing := marks.contains 'm',
          start := start.toNat, stop := stop.toNat, field? := role.string?, children }
    | _, _, _ => none
  | _ => none

/-- The trees that the items of a JSON array describe. -/
def ofItems? : List Json → Option (List Node)
  | [] => some []
  | item :: items =>
    match ofJson? item, ofItems? items with
    | some node, some nodes => some (node :: nodes)
    | _, _ => none

end

end LivePreview.Syntax.Node

namespace LivePreview.Lowering

/-! ## §2. Parsers -/

/-- A source in a dialect, with its tree. -/
structure Parsed where
  dialect : Dialect
  source : String
  tree : Syntax.Node

/-- The parsed source that a JSON object with the fields `dialect`, `source` and `tree`
describes. -/
def Parsed.ofJson? (value : Json) : Option Parsed := do
  let dialect ← (← (← value.field? "dialect").string?) |> Dialect.ofName?
  let source ← (← value.field? "source").string?
  let tree ← Syntax.Node.ofJson? (← value.field? "tree")
  return { dialect, source, tree }

/-- The tree of a source that cannot be parsed. -/
def unparsed (source : String) : Syntax.Node :=
  { kind := "ERROR", isNamed := true, isMissing := false, start := 0, stop := source.utf8ByteSize,
    field? := none, children := [] }

/-- The parser that knows the given sources. -/
def parserOf (known : List Parsed) : Parser := fun dialect source =>
  match known.find? fun p => p.dialect == dialect && p.source == source with
  | some p => p.tree
  | none => unparsed source

/-- The parser that knows the sources in a JSON array. -/
def parserOfJson : Json → Parser
  | .array items => parserOf (items.filterMap Parsed.ofJson?)
  | _ => parserOf []

end LivePreview.Lowering
