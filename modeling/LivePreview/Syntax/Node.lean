/-
  LivePreview.Syntax.Node
  ───────────────────────
  **Concrete parse trees.**

  A parser turns a source into a tree of nodes.  A node names its kind and its place
  in the source in bytes, and holds its children in the order of the source: named
  nodes for the constructs of the grammar, anonymous ones for its keywords and
  punctuation.  The text between two children belongs to the node but to no child.

  A parser always returns a tree.  Where the source does not follow the grammar, the
  tree holds a node of kind `ERROR` around what was skipped, or a missing node for
  what was put in.  `Node.hasFault` tells whether there is such a node, and
  `Node.firstFault?` finds the first one in document order (`Node.preorder`), passing over the
  trees in which there is none.

  Functions on trees are folds (`Node.fold`): they combine a node with the results
  for its children (`Node.fold_eq`).  Proofs about all trees go from the children to the
  node (`Node.forall_of_children`).
-/
namespace LivePreview.Syntax

/-! ## §1. Nodes -/

/-- A node of a parse tree. -/
structure Node where
  /-- The name of the construct, or the token itself. -/
  kind : String
  /-- The node is a construct of the grammar and no mere token. -/
  isNamed : Bool
  /-- The parser put the node in, and the source holds nothing for it. -/
  isMissing : Bool
  /-- The bytes of the source in front of the node. -/
  start : Nat
  /-- The bytes of the source up to the end of the node. -/
  stop : Nat
  /-- The role of the node in its parent. -/
  field? : Option String
  children : List Node
  deriving Inhabited

namespace Node

/-- The node is a token of the given kind. -/
def isToken (node : Node) (kind : String) : Bool :=
  !node.isNamed && node.kind == kind

/-- The constructs among the children. -/
def namedChildren (node : Node) : List Node :=
  node.children.filter (·.isNamed)

/-- The first child in a role. -/
def childByField? (node : Node) (name : String) : Option Node :=
  node.children.find? (·.field? == some name)

/-- One of the children is a token of the given kind. -/
def hasToken (node : Node) (kind : String) : Bool :=
  node.children.any (·.isToken kind)

/-! ## §2. Folds -/

variable {α : Type}

mutual

/-- Combine every node with the results for its children, from the leaves up. -/
def fold (f : Node → List α → α) : Node → α
  | ⟨kind, isNamed, isMissing, start, stop, field?, children⟩ =>
    f ⟨kind, isNamed, isMissing, start, stop, field?, children⟩ (foldList f children)

/-- The results for the nodes of a list. -/
def foldList (f : Node → List α → α) : List Node → List α
  | [] => []
  | node :: nodes => fold f node :: foldList f nodes

end

theorem foldList_eq_map (f : Node → List α → α) (nodes : List Node) :
    foldList f nodes = nodes.map (fold f) := by
  induction nodes with
  | nil => rfl
  | cons node nodes ih => simp [foldList, ih]

/-- A fold combines a node with the folds of its children. -/
theorem fold_eq (f : Node → List α → α) (node : Node) :
    node.fold f = f node (node.children.map (fold f)) := by
  obtain ⟨kind, isNamed, isMissing, start, stop, field?, children⟩ := node
  simp [fold, foldList_eq_map]

/-- What holds of a node if it holds of its children holds of every node. -/
theorem forall_of_children {P : Node → Prop}
    (h : ∀ node : Node, (∀ child ∈ node.children, P child) → P node) (node : Node) : P node := by
  refine h node fun child hchild => ?_
  have hsize := List.sizeOf_lt_of_mem hchild
  exact forall_of_children h child
  termination_by node
  decreasing_by
    obtain ⟨kind, isNamed, isMissing, start, stop, field?, children⟩ := node
    simp only [mk.sizeOf_spec] at hsize ⊢
    omega

/-! ## §3. Faults -/

/-- The node marks a place where the source does not follow the grammar. -/
def isFault (node : Node) : Bool :=
  node.isMissing || node.kind == "ERROR"

/-- The tree holds a node that marks a fault. -/
def hasFault : Node → Bool :=
  fold fun node results => node.isFault || results.any id

/-- The nodes of the tree, every node in front of its children. -/
def preorder : Node → List Node :=
  fold fun node results => node :: results.flatten

theorem preorder_eq (node : Node) :
    node.preorder = node :: (node.children.map preorder).flatten :=
  fold_eq _ node

/-- The nodes of the trees on a stack, the top one in front. -/
theorem flatMap_preorder_cons (node : Node) (stack : List Node) :
    (node :: stack).flatMap preorder = node :: (node.children ++ stack).flatMap preorder := by
  rw [List.flatMap_cons, preorder_eq, ← List.flatMap_def, List.flatMap_append, List.cons_append]

/-- The first fault that is found on a stack of trees.  The children of a node that holds a fault
take its place on the stack, and a tree without faults is taken off unseen. -/
def searchFault : List Node → Option Node
  | [] => none
  | node :: stack =>
    if node.isFault then some node
    else if node.hasFault then searchFault (node.children ++ stack)
    else searchFault stack
termination_by stack => (stack.flatMap preorder).length
decreasing_by
  all_goals
    rw [flatMap_preorder_cons, List.length_cons, List.flatMap_append, List.length_append]
    omega

/-- The first node in document order that marks a fault. -/
def firstFault? (root : Node) : Option Node :=
  searchFault [root]

/-! ## §4. Text -/

/-- The part of a source between two offsets in bytes. -/
def slice (source : String) (start stop : Nat) : String :=
  String.Pos.Raw.extract source ⟨start⟩ ⟨stop⟩

/-- The text of a node. -/
def text (source : String) (node : Node) : String :=
  slice source node.start node.stop

/-- The line that a node starts on, counted from one. -/
def line (source : String) (node : Node) : Nat :=
  (slice source 0 node.start).toList.count '\n' + 1

end Node

end LivePreview.Syntax
