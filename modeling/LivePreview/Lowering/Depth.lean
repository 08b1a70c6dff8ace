/-
  LivePreview.Lowering.Depth
  ──────────────────────────
  **How deep the lowering of a tree goes.**

  The rule for a node hands its parts on to the rules for them, and stays open until
  they are done.  Every rule counts for the levels that it keeps open around a part
  (`levelsAround`) and for those that it needs of its own (`ownLevels`), so that the
  levels of a tree are the most that are open at once (`levels`).  Parts that leave
  no code count for nothing.  A tree with more levels than `levelLimit` is not lowered.

  Main statement: `levels_eq` — the levels of a node follow from those of its children.
-/
import LivePreview.Lowering.Emission

namespace LivePreview.Lowering

open LivePreview.Syntax (Node)

/-! ## §1. Levels of a rule -/

/-- The levels that the rule for a kind of node keeps open around its parts.  A rule that keeps
its node together has two; one that looks a node over before, three; and one that drops tokens,
four.  An element counts for the nodes that it is made up of. -/
def levelsAround : String → Nat
  | "jsx_opening_element" | "jsx_closing_element" | "jsx_expression" | "enum_body"
  | "enum_assignment" => 0
  | "jsx_attribute" => 1
  | "call_expression" | "import_statement" | "export_statement" | "jsx_element"
  | "jsx_self_closing_element" | "jsx_fragment" => 3
  | "optional_parameter" | "variable_declarator" | "public_field_definition"
  | "abstract_class_declaration" | "method_definition" => 4
  | _ => 2

/-- The levels that the rule for a kind of node needs whatever its parts are: those for cutting
a text out of the source, for a tag, and for a run of text between two children. -/
def ownLevels : String → Nat
  | "jsx_self_closing_element" => 6
  | "jsx_element" | "jsx_fragment" => 8
  | _ => 3

/-! ## §2. Levels of a tree -/

/-- The results for the constructs among the children of a node. -/
def namedResults {α : Type} (node : Node) (results : List α) : List α :=
  ((node.children.zip results).filter (·.1.isNamed)).map (·.2)

/-- The levels of a node, given those of its children. -/
def levelsOver (node : Node) (below : List Nat) : Nat :=
  if removedKinds.contains node.kind then 1
  else if wrapperKinds.contains node.kind then 1 + (namedResults node below).headD 0
  else if node.kind == "type_assertion" then 2 + (namedResults node below).getLastD 0
  else max (ownLevels node.kind) (levelsAround node.kind + below.foldl max 0)

/-- The levels of a tree. -/
def levels : Node → Nat :=
  Node.fold levelsOver

/-- The levels of a node follow from those of its children. -/
theorem levels_eq (node : Node) : levels node = levelsOver node (node.children.map levels) :=
  Node.fold_eq levelsOver node

/-- The most levels that a tree which is lowered may have. -/
def levelLimit : Nat := 993

/-- The tree can be lowered without opening too many levels. -/
def isShallow (root : Node) : Bool :=
  levels root ≤ levelLimit

end LivePreview.Lowering
