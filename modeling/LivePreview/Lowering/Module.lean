/-
  LivePreview.Lowering.Module
  ───────────────────────────
  **From a source to a plain module.**

  `lower` parses a source and emits it.  A module with elements that does not import
  `React` itself gets an import of it in front.  The specifiers of the module are
  listed in the order of their first visit (`LoweredModule.imports`), and the place
  of every specifier literal in the code is known (`LoweredModule.sites`), so that a
  module can be linked without being parsed again.
-/
import LivePreview.Lowering.Depth

namespace LivePreview.Lowering

open LivePreview.Syntax (Node)

/-- A lowered module. -/
structure LoweredModule where
  code : String
  /-- The imported specifiers, each once. -/
  imports : List Text
  /-- The specifier literals in the code. -/
  sites : List Site
  usesJsx : Bool
  deriving DecidableEq, Repr

/-! ## §1. Faults of the source -/

/-- How much of the source a message shows at most, in characters. -/
def nearLimit : Nat := 40

/-- The beginning of a text that a message shows: its first line without blanks around it. -/
def nearText (text : String) : String :=
  let line := (Text.trim text.toList).takeWhile (!Text.isLineBreak ·)
  String.ofList (line.take nearLimit)

/-- What a message says about a node that marks a fault. -/
def faultCause (source : String) (node : Node) : Cause :=
  if node.isMissing then .missing node.kind else .unexpected (nearText (node.text source))

/-- The rejection of a tree with faults, which names the first one. -/
def faultOf (source : String) (root : Node) : Rejection :=
  match root.firstFault? with
  | some node => ⟨faultCause source node, node.line source⟩
  | none => ⟨.unknownFault, 1⟩

/-! ## §2. Lowering -/

/-- Put a specifier at the front of a list, from wherever it stands in it. -/
def moveToFront (specifier : Text) (imports : List Text) : List Text :=
  specifier :: imports.erase specifier

/-- The module that has to be imported as `React`, if there is one. -/
def State.reactSource? (options : Options) (state : State) : Option Text :=
  if state.usesJsx && !state.bindsReact then
    (options.importSource?.filter (!·.isEmpty)).map Text.ofString
  else none

/-- Put the import of `React` in front of the code, where it is needed; the result is the code
and the imports in order. -/
def withPreamble (options : Options) (body : Code) : Emit (Code × List Text) := do
  let state ← get
  match state.reactSource? options with
  | none => return (body, state.imports)
  | some source =>
    let literal ← placeSite source
    return (Code.ofText "import React from " ++ literal ++ Code.ofText ";\n" ++ body,
      moveToFront source state.imports)

/-- Emit the code of a tree and its imports. -/
def emitModule (context : Context) (root : Node) : Emit (Code × List Text) := do
  withPreamble context.options (← emit context root)

/-- Lower a tree without faults. -/
def lowerTree (options : Options) (source : String) (root : Node) :
    Except Failure LoweredModule := do
  let ((code, imports), state) ← (emitModule ⟨source, options⟩ root).run {}
  let (text, sites) ← (code.finish state.sites).mapError .ofFill
  return ⟨text, imports, sites, state.usesJsx⟩

/-- Lower a source. -/
def lower (parser : Parser) (dialect : Dialect) (options : Options) (source : String) :
    Except Failure LoweredModule :=
  if source.contains '\x00' then .error (.rejected ⟨.nulCharacter, 1⟩)
  else
    let root := parser dialect source
    if root.hasFault then .error (.rejected (faultOf source root))
    else if isShallow root then lowerTree options source root
    else .error .tooDeep

end LivePreview.Lowering
