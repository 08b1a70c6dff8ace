/-
  LivePreview.Lowering.Declaration
  ────────────────────────────────
  **Constructors and enumerations.**

  A parameter of a constructor that carries a modifier is also a property of the
  class: the constructor assigns it, behind the call of the parent's constructor if
  the body starts with one and else as its first step.  An enumeration becomes a
  frozen object.
-/
import LivePreview.Lowering.Draft
import LivePreview.Lowering.Numbering

namespace LivePreview.Lowering

open LivePreview.Syntax (Node)

/-! ## §1. Constructors -/

/-- A child of a parameter that makes it a property. -/
def isPropertyModifier (node : Node) : Bool :=
  node.kind == "accessibility_modifier" || node.kind == "override_modifier"
    || node.isToken "readonly"

/-- The name of the property that a parameter is, if it is one. -/
def parameterProperty? (context : Context) (parameter : Node) : Option String := do
  let pattern ← parameter.childByField? "pattern"
  if (parameter.kind == "required_parameter" || parameter.kind == "optional_parameter")
      && parameter.children.any isPropertyModifier && pattern.kind == "identifier" then
    some (context.text pattern)
  else none

/-- The names of the parameters that are properties, in order. -/
def parameterProperties (context : Context) (method : Node) : List String :=
  match method.childByField? "parameters" with
  | none => []
  | some parameters => parameters.namedChildren.filterMap (parameterProperty? context)

/-- The assignments of the properties. -/
def assignments (names : List String) : String :=
  String.join (names.map fun name => " this." ++ name ++ " = " ++ name ++ ";")

/-- The statement calls the constructor of the parent class. -/
def isSuperCall (statement : Node) : Bool :=
  statement.kind == "expression_statement"
    && statement.namedChildren.head?.any fun expression =>
      expression.kind == "call_expression"
        && (expression.childByField? "function").any (·.kind == "super")

/-- Emit the body of a constructor with assignments behind a leading call of the parent's
constructor, or else behind the opening brace. -/
def constructorBody (context : Context) (added : String) (body : Draft) : Emit Code :=
  Draft.assemble context body.node <|
    if body.node.namedChildren.head?.any isSuperCall then
      Draft.replaceFirst Draft.isNamed
        (fun call => return (← call.emission) ++ Code.ofText added) body.children
    else
      Draft.replaceEach (Draft.isTokenAmong ["\x7b"])
        (fun _ => return Code.ofText ("\x7b" ++ added)) body.children

/-- Emit a method. -/
def methodDefinition (context : Context) (node : Node) (children : List Draft) : Emit Code :=
  let isConstructor := (node.childByField? "name").any (context.text · == "constructor")
  let properties := parameterProperties context node
  if isConstructor && !properties.isEmpty && (node.childByField? "body").isSome then
    Draft.assemble context node
      (Draft.replaceFirst (Draft.hasField "body")
        (constructorBody context (assignments properties)) children)
  else Draft.dropTokens context ["?"] node children

/-! ## §2. Enumerations -/

/-- A member without initialiser. -/
def isBareMember (member : Draft) : Bool :=
  ["property_identifier", "string", "identifier"].contains member.kind

/-- The value behind an initialised member. -/
def nextAfter (context : Context) (initializer : Node) (value : Code) :
    Except Failure NextValue :=
  if initializer.kind == "number" then NextValue.afterNumeral (context.text initializer)
  else if initializer.kind == "string" || initializer.kind == "template_string" then
    return .unknown
  else return .value (sumOf value)

/-- The field of a member in the object. -/
def memberField (context : Context) (key : Node) (value : Code) : Code :=
  Code.ofText (context.text key ++ ": ") ++ value

/-- Emit the fields for the members of an enumeration; `next` is the value of the first one if
it has no initialiser. -/
def enumFields (context : Context) : NextValue → List Draft → Emit (List Code)
  | _, [] => return []
  | next, member :: members => do
    if member.kind == "enum_assignment" then
      let names := Draft.named member.children
      let key ← demand (Draft.byField? "name" member.children <|> names.head?)
      let initializer ← demand (Draft.byField? "value" member.children <|> names.getLast?)
      let value ← initializer.emission
      let following ← nextAfter context initializer.node value
      let fields ← enumFields context following members
      return memberField context key.node value :: fields
    else if isBareMember member then
      match ← next.take? with
      | none => reject context member.node .uninitializedMember
      | some (value, following) =>
        let fields ← enumFields context following members
        return memberField context member.node value :: fields
    else enumFields context next members

/-- Emit an enumeration as a frozen object. -/
def enumDeclaration (context : Context) (node : Node) (children : List Draft) : Emit Code := do
  let members := ((Draft.byField? "body" children).map fun body =>
    Draft.named body.children).getD []
  let fields ← enumFields context (.numeral "0") members
  let name ← demand (node.childByField? "name")
  return Code.ofText ("const " ++ context.text name ++ " = Object.freeze(\x7b ")
    ++ Code.joinWith ", " fields ++ Code.ofText " \x7d);"

end LivePreview.Lowering
