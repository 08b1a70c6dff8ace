/-
  LivePreview.Lowering.Basic
  ──────────────────────────
  **What lowering is given, what it keeps track of, and how it fails.**

  Lowering turns a source with types and elements in it into a plain module.  While
  it emits code it collects, in the order of visiting, the specifiers that the module
  imports (`State.imports`) and the specifier of every placeholder (`State.sites`).
-/
import LivePreview.Lowering.Code
import LivePreview.Syntax.Node
import LivePreview.Text.Quoted

namespace LivePreview.Lowering

open LivePreview.Text (quoted)

/-! ## §1. Dialects and options -/

/-- The two grammars a source may be written in. -/
inductive Dialect where
  | typescript
  | tsx
  deriving DecidableEq, Repr, Inhabited

/-- The name of a dialect. -/
def Dialect.name : Dialect → String
  | .typescript => "typescript"
  | .tsx => "tsx"

/-- The dialect with a name. -/
def Dialect.ofName? : String → Option Dialect
  | "typescript" => some .typescript
  | "tsx" => some .tsx
  | _ => none

/-- What is said about a name that no dialect has. -/
def unknownDialect (name : String) : String :=
  "Unknown dialect " ++ quoted name ++ "; expected one of ('typescript', 'tsx')"

/-- A parser: the tree of a source in a dialect. -/
abbrev Parser := Dialect → String → Syntax.Node

/-- How elements are lowered. -/
structure Options where
  /-- The function that makes an element. -/
  factory : String := "React.createElement"
  /-- The tag of a fragment. -/
  fragment : String := "React.Fragment"
  /-- The module that `React` is imported from where elements need it; without one nothing is
  imported. -/
  importSource? : Option String := some "react"
  deriving DecidableEq, Repr, Inhabited

/-! ## §2. Failures -/

/-- Why a source is rejected. -/
inductive Cause where
  | nulCharacter
  /-- The parser had to put in a node of this kind. -/
  | missing (kind : String)
  /-- The source does not follow the grammar; the text is what stands there. -/
  | unexpected (near : String)
  /-- The source does not follow the grammar at a place unknown. -/
  | unknownFault
  | requireImport
  | exportAssignment
  | namespaceDeclaration
  | moduleDeclaration
  /-- The value of an enumeration member does not follow from the member before it. -/
  | uninitializedMember
  deriving DecidableEq, Repr

/-- The wording of a cause. -/
def Cause.message : Cause → String
  | .nulCharacter => "Source contains NUL characters"
  | .missing kind => "Missing " ++ quoted kind
  | .unexpected near =>
    if near.isEmpty then "Unexpected token" else "Unexpected token near " ++ quoted near
  | .unknownFault => "Syntax error"
  | .requireImport => "'import = require()' declarations are not supported"
  | .exportAssignment => "'export =' assignments are not supported"
  | .namespaceDeclaration => "Namespaces are not supported"
  | .moduleDeclaration => "Module declarations are not supported"
  | .uninitializedMember => "Enum member must have an initializer"

/-- Why and on which line a source is rejected. -/
structure Rejection where
  cause : Cause
  line : Nat
  deriving DecidableEq, Repr

/-- How lowering fails. -/
inductive Failure where
  | rejected (rejection : Rejection)
  /-- The value of an enumeration member has too many digits to be written. -/
  | numeralTooLong
  /-- The tree lacks a node that its grammar demands. -/
  | brokenTree
  /-- A character reference, or a number between NUL characters in the code, has too many digits
  to be read. -/
  | tooManyDigits (count : Nat)
  /-- Too many nodes of the tree lie inside one another. -/
  | tooDeep
  deriving DecidableEq, Repr

/-! ## §3. Emission -/

/-- What has been collected so far. -/
structure State where
  /-- The imported specifiers in the order of their first visit. -/
  imports : List Text := []
  /-- The specifier of every placeholder, by number. -/
  sites : List Text := []
  /-- An element has been lowered. -/
  usesJsx : Bool := false
  /-- An import binds the name `React`. -/
  bindsReact : Bool := false
  deriving DecidableEq, Repr, Inhabited

/-- A step of emission. -/
abbrev Emit := StateT State (Except Failure)

/-- What does not change during emission. -/
structure Context where
  source : String
  options : Options

/-- The text of a node. -/
def Context.text (context : Context) (node : Syntax.Node) : String :=
  node.text context.source

/-- Why code cannot be finished, as a failure. -/
def Failure.ofFill : FillFault → Failure
  | .noSpecifier _ => .brokenTree
  | .overlong digits => .tooManyDigits digits

/-- Reject the source because of a node. -/
def reject {α : Type} (context : Context) (node : Syntax.Node) (cause : Cause) : Emit α :=
  throw (.rejected ⟨cause, node.line context.source⟩)

/-- The value, which the grammar demands. -/
def demand {α : Type} : Option α → Emit α
  | some a => pure a
  | none => throw .brokenTree

/-- A new placeholder for a specifier. -/
def placeSite (specifier : Text) : Emit Code := do
  let state ← get
  set { state with sites := state.sites ++ [specifier] }
  return [.site state.sites.length]

/-- Enter a specifier among the imports and make a placeholder for it. -/
def recordImport (specifier : Text) : Emit Code := do
  modify fun state =>
    if state.imports.contains specifier then state
    else { state with imports := state.imports ++ [specifier] }
  placeSite specifier

end LivePreview.Lowering
