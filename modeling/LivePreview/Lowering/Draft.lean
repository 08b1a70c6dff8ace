/-
  LivePreview.Lowering.Draft
  ──────────────────────────
  **Nodes with their emission.**

  The rule for a node may reach several levels down: it drops a token of a child,
  puts text behind a grandchild, or leaves out what stands between them.  A draft is
  a node together with the drafts of its children and the step that emits it, so a
  rule takes drafts, exchanges the steps of some (`Draft.replaceFirst`,
  `Draft.replaceEach`), and assembles the rest from the source (`Draft.assemble`).
-/
import LivePreview.Lowering.Basic

namespace LivePreview.Lowering

open LivePreview.Syntax (Node)

/-- A node, the drafts of its children, and the step that emits it. -/
structure Draft where
  node : Node
  children : List Draft
  emission : Emit Code

namespace Draft

/-! ## §1. Choosing drafts -/

/-- The draft is that of a construct. -/
def isNamed (draft : Draft) : Bool :=
  draft.node.isNamed

/-- The kind of the node. -/
def kind (draft : Draft) : String :=
  draft.node.kind

/-- The node fills a role in its parent. -/
def hasField (name : String) (draft : Draft) : Bool :=
  draft.node.field? == some name

/-- The node is a token of one of the kinds. -/
def isTokenAmong (kinds : List String) (draft : Draft) : Bool :=
  !draft.isNamed && kinds.contains draft.kind

/-- The drafts of constructs. -/
def named (drafts : List Draft) : List Draft :=
  drafts.filter isNamed

/-- The first draft in a role. -/
def byField? (name : String) (drafts : List Draft) : Option Draft :=
  drafts.find? (hasField name)

/-! ## §2. Exchanging steps -/

/-- The draft with another step. -/
def withEmission (draft : Draft) (emission : Emit Code) : Draft :=
  { draft with emission := emission }

/-- Exchange the step of the first draft that satisfies a condition. -/
def replaceFirst (p : Draft → Bool) (f : Draft → Emit Code) : List Draft → List Draft
  | [] => []
  | draft :: drafts =>
    if p draft then draft.withEmission (f draft) :: drafts
    else draft :: replaceFirst p f drafts

/-- Exchange the steps of all drafts that satisfy a condition. -/
def replaceEach (p : Draft → Bool) (f : Draft → Emit Code) (drafts : List Draft) : List Draft :=
  drafts.map fun draft => if p draft then draft.withEmission (f draft) else draft

/-! ## §3. Assembly -/

/-- Emit drafts and the source between them, from one offset to another. -/
def assembleFrom (source : String) (stop : Nat) : Nat → List Draft → Emit Code
  | position, [] => return Code.ofText (Node.slice source position stop)
  | position, draft :: drafts => do
    let code ← draft.emission
    let rest ← assembleFrom source stop draft.node.stop drafts
    return Code.ofText (Node.slice source position draft.node.start) ++ code ++ rest

/-- Emit a node from its source text, with what its children emit in their places. -/
def assemble (context : Context) (node : Node) (children : List Draft) : Emit Code :=
  if children.isEmpty then return Code.ofText (context.text node)
  else assembleFrom context.source node.stop node.start children

/-- Emit a node without the tokens of the given kinds among its children. -/
def dropTokens (context : Context) (kinds : List String) (node : Node)
    (children : List Draft) : Emit Code :=
  assemble context node (replaceEach (isTokenAmong kinds) (fun _ => return []) children)

end Draft

end LivePreview.Lowering
