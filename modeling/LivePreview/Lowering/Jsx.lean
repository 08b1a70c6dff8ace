/-
  LivePreview.Lowering.Jsx
  ────────────────────────
  **Elements.**

  An element becomes a call of the factory with its tag, its properties and its
  children.  A tag that starts with a small letter, or has a hyphen or a colon in it,
  is a text; any other tag is an expression.  The text between two children is one
  child if something is left of it (`JsxText.ofRun`).
-/
import LivePreview.Lowering.Draft
import LivePreview.Lowering.JsxText
import LivePreview.Lowering.Specifier
import LivePreview.Text.LetterCase

namespace LivePreview.Lowering

open LivePreview.Syntax (Node)

/-! ## §1. Tags and properties -/

/-- The name of an element that the page itself knows. -/
def isPlainTag (tag : String) : Bool :=
  tag.toList.head?.any Text.isLowercase || tag.toList.contains '-'

/-- The tag of an element as an expression. -/
def jsxTag (context : Context) (element : Node) : String :=
  match element.childByField? "name" with
  | none => context.options.fragment
  | some name =>
    let text := context.text name
    if (name.kind == "identifier" && isPlainTag text) || name.kind == "jsx_namespace_name" then
      Json.literal text
    else text

/-- The text can name a property without quotes. -/
def isPlainKey (key : String) : Bool :=
  match key.toList with
  | [] => false
  | c :: cs =>
    (c.isAlpha || c == '_' || c == '$') && cs.all fun c => c.isAlphanum || c == '_' || c == '$'

/-- The expression in braces, if there is more than comments. -/
def bracedExpression? (children : List Draft) : Option Draft :=
  (Draft.named children).find? (·.kind != "comment")

/-- The text in which character references have been decoded, if all of them can be read. -/
def decodable {α : Type} : Except Text.CharacterReference.Overlong α → Emit α
  | .ok a => pure a
  | .error overlong => throw (.tooManyDigits overlong.digits)

/-- The value of an attribute in quotes. -/
def attributeText (context : Context) (value : Node) : Emit String :=
  decodable (Text.CharacterReference.unescape
    (String.ofList (withoutEnds (context.text value).toList)))

/-- Emit the value of an attribute. -/
def attributeValue (context : Context) (value : Draft) : Emit Code := do
  if value.kind == "string" || value.kind == "jsx_string" then
    return Code.ofText (Json.literal (← attributeText context value.node))
  else if value.kind == "jsx_expression" then
    match bracedExpression? value.children with
    | some expression => expression.emission
    | none => return Code.ofText "undefined"
  else value.emission

/-- Emit an attribute as a property. -/
def jsxAttribute (context : Context) (given : Draft) : Emit Code := do
  let parts := Draft.named given.children
  let name ← demand parts.head?
  let text := context.text name.node
  let key := if isPlainKey text then text else Json.literal text
  match parts[1]? with
  | none => return Code.ofText (key ++ ": true")
  | some value => return Code.ofText (key ++ ": ") ++ (← attributeValue context value)

/-- Emit an attribute or a spread as properties; anything else gives none. -/
def jsxProperty (context : Context) (part : Draft) : Emit (List Code) := do
  if part.kind == "jsx_attribute" then return [← jsxAttribute context part]
  else if part.kind == "jsx_expression" then
    match (Draft.named part.children).find? (·.kind == "spread_element") with
    | some spread => return [← spread.emission]
    | none => return []
  else return []

/-- Emit the properties of each part of an opening tag. -/
def jsxPropertyList (context : Context) : List Draft → Emit (List Code)
  | [] => return []
  | part :: parts => do
    let first ← jsxProperty context part
    let rest ← jsxPropertyList context parts
    return first ++ rest

/-- Emit the properties of an element. -/
def jsxProperties (context : Context) (parts : List Draft) : Emit Code := do
  match ← jsxPropertyList context (Draft.named parts) with
  | [] => return Code.ofText "null"
  | properties =>
    return Code.ofText "\x7b " ++ Code.joinWith ", " properties ++ Code.ofText " \x7d"

/-! ## §2. Children -/

/-- The part of a run of text that makes up a child, as arguments. -/
def runArguments (run : String) : Emit (List Code) := do
  let text ← decodable (JsxText.ofRun run)
  return if text.isEmpty then [] else [Code.ofText (Json.literal text)]

/-- Emit a child that is no text as arguments. -/
def jsxChild (child : Draft) : Emit (List Code) := do
  if child.kind == "comment" then return []
  else if child.kind == "jsx_expression" then
    match bracedExpression? child.children with
    | some expression => return [← expression.emission]
    | none => return []
  else return [← child.emission]

/-- The draft is a child between the tags, and no text. -/
def isInnerChild (start stop : Nat) (child : Draft) : Bool :=
  child.isNamed && start ≤ child.node.start && child.node.stop ≤ stop
    && child.kind != "jsx_text" && child.kind != "html_character_reference"

/-- Emit children and the text between them as arguments, from one offset to another. -/
def jsxArguments (context : Context) (stop : Nat) : Nat → List Draft → Emit (List Code)
  | position, [] => runArguments (Node.slice context.source position stop)
  | position, child :: children => do
    let run ← runArguments (Node.slice context.source position child.node.start)
    let own ← jsxChild child
    let rest ← jsxArguments context stop child.node.stop children
    return run ++ own ++ rest

/-- Emit what stands between two offsets of an element as arguments. -/
def jsxChildren (context : Context) (start stop : Nat) (children : List Draft) :
    Emit (List Code) :=
  jsxArguments context stop start (children.filter (isInnerChild start stop))

/-! ## §3. Elements -/

/-- The call that makes an element. -/
def factoryCall (context : Context) (tag : String) (properties : Code)
    (children : List Code) : Code :=
  Code.ofText (context.options.factory ++ "(")
    ++ Code.joinWith ", " (Code.ofText tag :: properties :: children) ++ Code.ofText ")"

/-- Emit an element without content. -/
def selfClosingElement (context : Context) (node : Node) (children : List Draft) :
    Emit Code := do
  let properties ← jsxProperties context children
  return factoryCall context (jsxTag context node) properties []

/-- Emit a fragment that is a node of its own, with two tokens in front of its content and three
behind it. -/
def fragmentElement (context : Context) (node : Node) (children : List Draft) :
    Emit Code := do
  let start ← demand node.children[1]?
  let stop ← demand node.children.reverse[2]?
  let arguments ← jsxChildren context start.stop stop.start children
  return factoryCall context context.options.fragment (Code.ofText "null") arguments

/-- Emit an element with content. -/
def contentElement (context : Context) (children : List Draft) : Emit Code := do
  let opening ← demand (Draft.byField? "open_tag" children <|> children.head?)
  let closing ← demand (Draft.byField? "close_tag" children <|> children.getLast?)
  let properties ← jsxProperties context opening.children
  let arguments ← jsxChildren context opening.node.stop closing.node.start children
  return factoryCall context (jsxTag context opening.node) properties arguments

/-- The kinds of elements. -/
def elementKinds : List String :=
  ["jsx_element", "jsx_self_closing_element", "jsx_fragment"]

/-- Emit an element. -/
def jsxElement (context : Context) (node : Node) (children : List Draft) : Emit Code := do
  modify fun state => { state with usesJsx := true }
  if node.kind == "jsx_self_closing_element" then selfClosingElement context node children
  else if node.kind == "jsx_fragment" then fragmentElement context node children
  else contentElement context children

end LivePreview.Lowering
