/-
  LivePreview.Lowering.Statement
  ──────────────────────────────
  **Imports and exports.**

  Bindings that are marked as types vanish, and a statement vanishes with them when
  it is marked as a whole, or when it names bindings and all of them are marked.
  The specifier of every statement that stays is recorded, and its literal becomes a
  placeholder.  A call of `import` with a literal is treated in the same way.
-/
import LivePreview.Lowering.Draft
import LivePreview.Lowering.Specifier

namespace LivePreview.Lowering

open LivePreview.Syntax (Node)

/-- The specifier of an import or export is marked as a type. -/
def isTypeOnly (specifier : Node) : Bool :=
  specifier.hasToken "type"

/-- Names in braces. -/
def braced (names : List String) : String :=
  "\x7b " ++ ", ".intercalate names ++ " \x7d"

/-! ## §1. Import clauses -/

/-- The imported bindings in braces that are not marked as types. -/
def keptImports (namedImports : Node) : List Node :=
  namedImports.namedChildren.filter fun n => n.kind == "import_specifier" && !isTypeOnly n

/-- The bindings that a part of an import clause keeps. -/
def clauseParts (context : Context) (part : Node) : List String :=
  if part.kind == "identifier" || part.kind == "namespace_import" then [context.text part]
  else if part.kind == "named_imports" then
    match keptImports part with
    | [] => []
    | kept => [braced (kept.map context.text)]
  else []

/-- The text of an import clause without its types; `none` if it names bindings in braces and
nothing is left of the clause. -/
def clauseText? (context : Context) (clause : Node) : Option String :=
  match clause.namedChildren.flatMap (clauseParts context) with
  | [] =>
    if clause.namedChildren.any (·.kind == "named_imports") then none
    else some (context.text clause)
  | parts => some (", ".intercalate parts)

/-- The name under which a binding is imported. -/
def localName? (specifier : Node) : Option Node :=
  specifier.childByField? "alias" <|> specifier.childByField? "name"

/-- The node is the name `React`. -/
def isReact (context : Context) (node : Node) : Bool :=
  context.text node == "React"

/-- A part of an import clause binds the name `React`. -/
def partBindsReact (context : Context) (part : Node) : Bool :=
  if part.kind == "identifier" then isReact context part
  else if part.kind == "namespace_import" then part.namedChildren.any (isReact context)
  else if part.kind == "named_imports" then
    (keptImports part).any fun specifier => (localName? specifier).any (isReact context)
  else false

/-- Note whether an import clause binds the name `React`. -/
def noteReact (context : Context) (clause : Node) : Emit Unit :=
  modify fun state =>
    { state with
      bindsReact := state.bindsReact || clause.namedChildren.any (partBindsReact context) }

/-! ## §2. Statements -/

/-- Put a text in place of the first clause of a kind. -/
def replaceClause (kind text : String) : List Draft → List Draft :=
  Draft.replaceFirst (fun d => d.isNamed && d.kind == kind) fun _ => return Code.ofText text

/-- Put a placeholder in place of the source of a statement. -/
def replaceSource (literal : Code) : List Draft → List Draft :=
  Draft.replaceFirst (Draft.hasField "source") fun _ => return literal

/-- Emit an import whose clause, if it has one, has the given text. -/
def keptImport (context : Context) (node : Node) (children : List Draft) : Emit Code := do
  let source ← demand (node.childByField? "source")
  let literal ← recordImport (specifierOf context.source source)
  Draft.assemble context node (replaceSource literal children)

/-- Emit an import statement. -/
def importStatement (context : Context) (node : Node) (children : List Draft) : Emit Code := do
  if node.hasToken "type" then return []
  if node.namedChildren.any (·.kind == "import_require_clause") then
    reject context node .requireImport
  match node.namedChildren.find? (·.kind == "import_clause") with
  | none => keptImport context node children
  | some clause =>
    noteReact context clause
    match clauseText? context clause with
    | none => return []
    | some text => keptImport context node (replaceClause "import_clause" text children)

/-- The declarations that leave no code. -/
def typeOnlyDeclarations : List String :=
  ["interface_declaration", "type_alias_declaration", "ambient_declaration",
    "function_signature"]

/-- An export statement that exports types only. -/
def exportsTypes (node : Node) : Bool :=
  node.hasToken "type"
    || (node.childByField? "declaration").any (fun d => typeOnlyDeclarations.contains d.kind)
    || node.namedChildren.any (·.kind == "interface_declaration")

/-- The text of an export clause without its types; `none` if it names bindings and all of them
are types. -/
def exportClauseText? (context : Context) (clause : Node) : Option String :=
  let specifiers := clause.namedChildren.filter (·.kind == "export_specifier")
  match specifiers.filter (!isTypeOnly ·) with
  | [] => if specifiers.isEmpty then some (context.text clause) else none
  | kept => some (braced (kept.map context.text))

/-- Emit an export whose clause, if it has one, has been replaced. -/
def keptExport (context : Context) (node : Node) (children : List Draft) : Emit Code :=
  match node.childByField? "source" with
  | none => Draft.assemble context node children
  | some source => do
    let literal ← recordImport (specifierOf context.source source)
    Draft.assemble context node (replaceSource literal children)

/-- Emit an export statement. -/
def exportStatement (context : Context) (node : Node) (children : List Draft) : Emit Code := do
  if exportsTypes node then return []
  if node.hasToken "=" then reject context node .exportAssignment
  match node.namedChildren.find? (·.kind == "export_clause") with
  | none => keptExport context node children
  | some clause =>
    match exportClauseText? context clause with
    | none => return []
    | some text => keptExport context node (replaceClause "export_clause" text children)

/-! ## §3. Calls -/

/-- The literal that a call of `import` has as its first argument. -/
def importedLiteral? (node : Node) : Option Node := do
  let function ← node.childByField? "function"
  let arguments ← node.childByField? "arguments"
  let first ← arguments.namedChildren.head?
  if function.kind == "import" && first.kind == "string" then some first else none

/-- Emit a call. -/
def callExpression (context : Context) (node : Node) (children : List Draft) : Emit Code :=
  match importedLiteral? node with
  | none => Draft.assemble context node children
  | some first => do
    let literal ← recordImport (specifierOf context.source first)
    let withLiteral := fun arguments : Draft =>
      Draft.assemble context arguments.node
        (Draft.replaceFirst Draft.isNamed (fun _ => return literal) arguments.children)
    Draft.assemble context node
      (Draft.replaceFirst (Draft.hasField "arguments") withLiteral children)

end LivePreview.Lowering
