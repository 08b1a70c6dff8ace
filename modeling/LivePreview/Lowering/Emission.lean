/-
  LivePreview.Lowering.Emission
  ─────────────────────────────
  **The rule for each kind of node.**

  Types vanish, wrappers around an expression are taken off, elements, enumerations,
  constructors, imports and exports have rules of their own, and a few kinds lose
  some of their tokens.  Every other node is emitted as it stands, with what its
  children emit in their places.

  Main statement: `draft_eq` — the draft of a node is built from the drafts of its
  children by `emission`.
-/
import LivePreview.Lowering.Declaration
import LivePreview.Lowering.Jsx
import LivePreview.Lowering.Statement

namespace LivePreview.Lowering

open LivePreview.Syntax (Node)

/-- The kinds of nodes that leave no code. -/
def removedKinds : List String :=
  ["type_annotation", "type_parameters", "type_arguments", "asserts_annotation",
    "type_predicate_annotation", "accessibility_modifier", "override_modifier",
    "implements_clause", "interface_declaration", "type_alias_declaration",
    "ambient_declaration", "function_signature", "abstract_method_signature",
    "method_signature", "index_signature"]

/-- The kinds of nodes that leave the expression at their front. -/
def wrapperKinds : List String :=
  ["as_expression", "satisfies_expression", "non_null_expression",
    "instantiation_expression"]

/-- Emit a draft that the grammar demands. -/
def emitDemanded (draft? : Option Draft) : Emit Code := do
  (← demand draft?).emission

/-- Emit a field of a class. -/
def fieldDefinition (context : Context) (node : Node) (children : List Draft) : Emit Code :=
  if node.hasToken "declare" || node.hasToken "abstract" then return []
  else Draft.dropTokens context ["?", "!"] node children

/-- Emit a node of a kind that is neither removed nor a wrapper. -/
def constructEmission (context : Context) (node : Node) (children : List Draft) :
    Emit Code :=
  match node.kind with
  | "import_statement" => importStatement context node children
  | "export_statement" => exportStatement context node children
  | "call_expression" => callExpression context node children
  | "type_assertion" => emitDemanded (Draft.named children).getLast?
  | "optional_parameter" => Draft.dropTokens context ["?"] node children
  | "variable_declarator" => Draft.dropTokens context ["!"] node children
  | "public_field_definition" => fieldDefinition context node children
  | "abstract_class_declaration" => Draft.dropTokens context ["abstract"] node children
  | "internal_module" => reject context node .namespaceDeclaration
  | "module" => reject context node .moduleDeclaration
  | "method_definition" => methodDefinition context node children
  | "enum_declaration" => enumDeclaration context node children
  | kind =>
    if elementKinds.contains kind then jsxElement context node children
    else Draft.assemble context node children

/-- Emit a node, given the drafts of its children. -/
def emission (context : Context) (node : Node) (children : List Draft) : Emit Code :=
  if removedKinds.contains node.kind then return []
  else if wrapperKinds.contains node.kind then emitDemanded (Draft.named children).head?
  else if node.isToken "readonly" then return []
  else constructEmission context node children

/-- The draft of a node. -/
def draft (context : Context) : Node → Draft :=
  Node.fold fun node children => ⟨node, children, emission context node children⟩

/-- The draft of a node is built from the drafts of its children. -/
theorem draft_eq (context : Context) (node : Node) :
    draft context node =
      ⟨node, node.children.map (draft context),
        emission context node (node.children.map (draft context))⟩ := by
  rw [draft, Node.fold_eq]

/-- Emit a node. -/
def emit (context : Context) (node : Node) : Emit Code :=
  (draft context node).emission

end LivePreview.Lowering
