/-
  LivePreview.Proofs.Lowering.Trace.Segment
  ─────────────────────────────────────────
  **Where the code of a tree stems from.**

  A trace goes through the source of a tree, segment by segment, and tells what has
  become of each: a token is copied, and so is what stands between the children of a
  node; a type leaves nothing, nor does whatever else is lost with it (`IsLost`); and
  inside a construct that is rebuilt there is code of its own (`IsMade`), from which the
  trace may go on at another place of the construct.  Every segment starts where the one
  in front of it stops (`Runs`).

  `Stems` says that code is what the segments of a trace spell.  It composes like the
  traces do (`Stems.append`), and the text of a node stems from the node, token by token
  (`stems_text`).  Of a trace that bears itself out, the code is empty exactly if nothing is
  left of any of its segments (`spelled_eq_nil_iff`).
-/
import LivePreview.Lowering.Emission
import LivePreview.Proofs.Lowering.Emission
import LivePreview.Proofs.Syntax.Layout

namespace LivePreview.Lowering

open LivePreview.Syntax (Node)

/-! ## §1. Segments -/

/-- A stretch of a source and what has become of it. -/
inductive Segment where
  /-- A token that is copied. -/
  | token (leaf : Node)
  /-- What stands between the children of a node, copied. -/
  | gap (start stop : Nat)
  /-- A stretch that leaves no code. -/
  | lost (start stop : Nat)
  /-- Code of its own in place of a stretch. -/
  | made (start stop : Nat) (code : Code)

namespace Segment

def start : Segment → Nat
  | token leaf => leaf.start
  | gap start _ | lost start _ | made start _ _ => start

def stop : Segment → Nat
  | token leaf => leaf.stop
  | gap _ stop | lost _ stop | made _ stop _ => stop

/-- The code of the segment. -/
def code (source : String) : Segment → Code
  | token leaf => .ofText (leaf.text source)
  | gap start stop => .ofText (Node.slice source start stop)
  | lost _ _ => []
  | made _ _ code => code

/-- Something of the stretch is left, or has come in its place. -/
def leavesCode : Segment → Bool
  | token leaf => leaf.start < leaf.stop
  | gap start stop => start < stop
  | lost _ _ => false
  | made _ _ _ => true

end Segment

/-- The code of segments. -/
def spelled (source : String) (segments : List Segment) : Code :=
  segments.flatMap (Segment.code source)

/-! ## §2. What is lost -/

/-- The tokens that a kind of node loses. -/
def droppedTokens : String → List String
  | "optional_parameter" | "method_definition" => ["?"]
  | "variable_declarator" => ["!"]
  | "public_field_definition" => ["?", "!"]
  | "abstract_class_declaration" => ["abstract"]
  | _ => []

/-- An import statement that imports types only. -/
def importsTypes (context : Context) (node : Node) : Bool :=
  node.hasToken "type"
    || (node.namedChildren.find? (·.kind == "import_clause")).any (clauseText? context · == none)

/-- An export statement of which nothing is left. -/
def exportsNothing (context : Context) (node : Node) : Bool :=
  exportsTypes node
    || (node.namedChildren.find? (·.kind == "export_clause")).any (exportClauseText? context · == none)

/-- The node leaves no code: it is a type or a modifier, a statement about types, or a field that
is only declared. -/
def leavesNothing (context : Context) (node : Node) : Bool :=
  removedKinds.contains node.kind || node.isToken "readonly"
    || (node.kind == "import_statement" && importsTypes context node)
    || (node.kind == "export_statement" && exportsNothing context node)
    || (node.kind == "public_field_definition" && (node.hasToken "declare" || node.hasToken "abstract"))

/-- The expression that a node leaves without the type beside it. -/
def unwrapped? (node : Node) : Option Node :=
  if wrapperKinds.contains node.kind then node.namedChildren.head?
  else if node.kind == "type_assertion" then node.namedChildren.getLast?
  else none

/-- The parts of an import clause that are no types, or not only types. -/
def keptParts (context : Context) (clause : Node) : List Node :=
  clause.namedChildren.filter fun part => !(clauseParts context part).isEmpty

/-- The stretch of the source leaves no code. -/
inductive IsLost (context : Context) (root : Node) : Nat → Nat → Prop where
  | whole {node : Node} (hnode : node ∈ root.preorder) (h : leavesNothing context node = true) :
    IsLost context root node.start node.stop
  | dropped {node child : Node} (hnode : node ∈ root.preorder) (hchild : child ∈ node.children)
    (htoken : child.isNamed = false) (h : child.kind ∈ droppedTokens node.kind) :
    IsLost context root child.start child.stop
  /-- What stands in front of the expression in a node with a type. -/
  | front {node kept : Node} (hnode : node ∈ root.preorder) (h : unwrapped? node = some kept) :
    IsLost context root node.start kept.start
  /-- What stands behind it. -/
  | back {node kept : Node} (hnode : node ∈ root.preorder) (h : unwrapped? node = some kept) :
    IsLost context root kept.stop node.stop
  /-- What stands in front of the first part that is left of an import clause. -/
  | clauseFront {clause part : Node} (hclause : clause ∈ root.preorder)
    (h : (keptParts context clause).head? = some part) : IsLost context root clause.start part.start
  /-- What stands behind the last one. -/
  | clauseBack {clause part : Node} (hclause : clause ∈ root.preorder)
    (h : (keptParts context clause).getLast? = some part) : IsLost context root part.stop clause.stop

/-! ## §3. What is made -/

/-- The kinds of nodes with code of their own. -/
def rebuiltKinds : List String :=
  ["import_statement", "export_statement", "call_expression", "method_definition", "enum_declaration"]
    ++ elementKinds

/-- The texts that are put into the code. -/
def madeTexts : List String :=
  [", ", "\x7b ", " \x7d", ": ", ": true", "null", "undefined", "(", ")", ") + 1", "const ",
    " = Object.freeze(\x7b ", " \x7d);", "\x7b", " this.", " = ", ";"]

/-- The text is the value of a member of an enumeration that has been counted. -/
def IsCounted (text : String) : Prop :=
  text = "0" ∨ ∃ before, successor? before = .ok (some text)

/-- Code that is put into the code of a tree. -/
inductive IsMade (options : Options) : Code → Prop where
  | fixed {text : String} (h : text ∈ madeTexts) : IsMade options (.ofText text)
  | factory : IsMade options (.ofText (options.factory ++ "("))
  | fragment : IsMade options (.ofText options.fragment)
  | literal (text : Text) : IsMade options (.ofText (Json.literal text))
  | counted {text : String} (h : IsCounted text) : IsMade options (.ofText text)
  | site (number : Nat) : IsMade options [.site number]

/-- The node is one of the tree, and its code is put together anew. -/
structure IsRebuilt (root construct : Node) : Prop where
  mem : construct ∈ root.preorder
  kind : construct.kind ∈ rebuiltKinds

/-! ## §4. Traces -/

/-- The offset is in the node or at one of its ends. -/
def Spans (node : Node) (offset : Nat) : Prop :=
  node.start ≤ offset ∧ offset ≤ node.stop

/-- The tree bears out what the segment says. -/
def Segment.Justified (context : Context) (root : Node) : Segment → Prop
  | .token leaf => leaf ∈ root.preorder ∧ leaf.children = []
  | .gap start stop => ∃ node ∈ root.preorder,
      node.children ≠ [] ∧ (start, stop) ∈ Node.spans node.stop node.start node.children
  | .lost start stop => IsLost context root start stop
  | .made start stop code => code ≠ [] ∧ IsMade context.options code ∧
      ∃ construct, IsRebuilt root construct ∧ Spans construct start ∧ Spans construct stop

/-- The segments go through the source from one offset to another. -/
def Runs (context : Context) (root : Node) : Nat → List Segment → Nat → Prop
  | start, [], stop => start = stop
  | start, segment :: segments, stop =>
    segment.start = start ∧ segment.Justified context root ∧ Runs context root segment.stop segments stop

/-- The code is that of segments that go from one offset to another. -/
def Stems (context : Context) (root : Node) (start stop : Nat) (code : Code) : Prop :=
  ∃ segments, Runs context root start segments stop ∧ spelled context.source segments = code

section Stems

variable {context : Context} {root : Node} {a b c : Nat} {code other : Code}

theorem Runs.append {segments others : List Segment} (h : Runs context root a segments b)
    (hothers : Runs context root b others c) : Runs context root a (segments ++ others) c := by
  -- by induction on the segments in front, each of which moves the start
  induction segments generalizing a with
  | nil =>
    cases h
    exact hothers
  | cons segment segments ih =>
    obtain ⟨hstart, hjustified, hrest⟩ := h
    exact ⟨hstart, hjustified, ih hrest⟩

theorem stems_nil : Stems context root a a [] :=
  ⟨[], rfl, rfl⟩

theorem Stems.append (h : Stems context root a b code) (hother : Stems context root b c other) :
    Stems context root a c (code ++ other) := by
  obtain ⟨segments, hruns, rfl⟩ := h
  obtain ⟨others, hothers, rfl⟩ := hother
  exact ⟨segments ++ others, hruns.append hothers, List.flatMap_append⟩

/-- The code of one segment. -/
theorem stems_segment {segment : Segment} (h : segment.Justified context root) :
    Stems context root segment.start segment.stop (segment.code context.source) :=
  ⟨[segment], ⟨rfl, h, rfl⟩, by unfold spelled; rw [List.flatMap_cons, List.flatMap_nil, List.append_nil]⟩

theorem stems_lost (h : IsLost context root a b) : Stems context root a b [] :=
  ⟨[.lost a b], ⟨rfl, h, rfl⟩, rfl⟩

end Stems

section Larger

variable {context : Context} {root node : Node} {a b : Nat}

theorem IsLost.mono (h : IsLost context node a b) (hsubset : node.preorder ⊆ root.preorder) :
    IsLost context root a b := by
  cases h with
  | whole hnode h => exact .whole (hsubset hnode) h
  | dropped hnode hchild htoken h => exact .dropped (hsubset hnode) hchild htoken h
  | front hnode h => exact .front (hsubset hnode) h
  | back hnode h => exact .back (hsubset hnode) h
  | clauseFront hclause h => exact .clauseFront (hsubset hclause) h
  | clauseBack hclause h => exact .clauseBack (hsubset hclause) h

theorem Segment.Justified.mono {segment : Segment} (h : segment.Justified context node)
    (hsubset : node.preorder ⊆ root.preorder) : segment.Justified context root := by
  cases segment with
  | token leaf => exact ⟨hsubset h.1, h.2⟩
  | gap start stop =>
    obtain ⟨parent, hparent, hgap⟩ := h
    exact ⟨parent, hsubset hparent, hgap⟩
  | lost start stop => exact IsLost.mono h hsubset
  | made start stop code =>
    obtain ⟨hne, hmade, construct, ⟨hmem, hkind⟩, hspans⟩ := h
    exact ⟨hne, hmade, construct, ⟨hsubset hmem, hkind⟩, hspans⟩

/-- A trace through a node is one through any tree with the node in it. -/
theorem Runs.mono {segments : List Segment} (h : Runs context node a segments b)
    (hsubset : node.preorder ⊆ root.preorder) : Runs context root a segments b := by
  induction segments generalizing a with
  | nil => exact h
  | cons segment segments ih =>
    obtain ⟨hstart, hjustified, hrest⟩ := h
    exact ⟨hstart, hjustified.mono hsubset, ih hrest⟩

end Larger

/-! ## §5. Text -/

section Text

variable {context : Context} {root node : Node}

theorem Code.ofText_append (text other : String) :
    Code.ofText (text ++ other) = Code.ofText text ++ Code.ofText other := by
  unfold Code.ofText
  rw [String.toList_append, List.map_append]

/-- A gap between children, the code behind it, and so on. -/
theorem Stems.behind_gap {position start stop finish : Nat} {code rest : Code}
    (hgap : (Segment.gap position start).Justified context root)
    (hcode : Stems context root start stop code) (hrest : Stems context root stop finish rest) :
    Stems context root position finish
      (Code.ofText (Node.slice context.source position start) ++ code ++ rest) :=
  ((stems_segment hgap).append hcode).append hrest

/-- A stretch with nodes in it stems from the gaps and from the nodes. -/
theorem stems_slice {stop position : Nat} {nodes : List Node}
    (hposition : Node.IsBoundary context.source position) (hstop : Node.IsBoundary context.source stop)
    (hrow : Node.InRow stop position nodes)
    (hgaps : ∀ span ∈ Node.spans stop position nodes, (Segment.gap span.1 span.2).Justified context root)
    (hnodes : ∀ node ∈ nodes, node.InPlace context.source ∧
      Stems context root node.start node.stop (.ofText (context.text node))) :
    Stems context root position stop (.ofText (Node.slice context.source position stop)) := by
  induction nodes generalizing position with
  | nil => exact stems_segment (hgaps (position, stop) List.mem_cons_self)
  | cons node nodes ih =>
    -- the stretch is the gap in front of the node, the node, and the stretch behind it
    obtain ⟨hstart, hle, hrest⟩ := hrow
    obtain ⟨hgap, hgaps⟩ := List.forall_mem_cons.mp hgaps
    obtain ⟨⟨hplace, hnode⟩, hnodes⟩ := List.forall_mem_cons.mp hnodes
    have hbehind := ih hplace.stop_isBoundary hrest hgaps hnodes
    have hwhole := hnode.behind_gap hgap hbehind
    rwa [← Code.ofText_append, ← Code.ofText_append, Context.text, Node.text,
      Node.slice_append hposition hplace.start_isBoundary hplace.stop_isBoundary hstart hle,
      Node.slice_append hposition hplace.stop_isBoundary hstop (Nat.le_trans hstart hle) hrest.le] at hwhole

/-- The gaps of a node that has children. -/
theorem justified_gap (hnode : node ∈ root.preorder) (hchildren : node.children ≠ []) :
    ∀ span ∈ Node.spans node.stop node.start node.children,
      (Segment.gap span.1 span.2).Justified context root :=
  fun _ hspan => ⟨node, hnode, hchildren, hspan⟩

/-- **The text of a node stems from its tokens and from what stands between them.** -/
theorem stems_text (hplaced : ∀ node ∈ root.preorder, node.InPlace context.source)
    (hnode : node ∈ root.preorder) :
    Stems context root node.start node.stop (.ofText (context.text node)) := by
  induction node using Node.forall_of_children with
  | h node ih =>
    by_cases hchildren : node.children = []
    · have hleaf : (Segment.token node).Justified context root := ⟨hnode, hchildren⟩
      exact stems_segment hleaf
    · -- a node that is no token is cut at the ends of its children
      have hplace := hplaced node hnode
      refine stems_slice hplace.start_isBoundary hplace.stop_isBoundary hplace.inRow
        (justified_gap hnode hchildren) fun child hchild => ?_
      have hmem := Node.mem_preorder_of_child hnode hchild
      exact ⟨hplaced child hmem, ih child hchild hmem⟩

end Text

/-! ## §6. What is left -/

section Left

variable {context : Context} {root : Node} {segments : List Segment}

theorem Runs.justified {a b : Nat} (h : Runs context root a segments b) :
    ∀ segment ∈ segments, segment.Justified context root := by
  induction segments generalizing a with
  | nil => exact fun _ hsegment => absurd hsegment List.not_mem_nil
  | cons segment segments ih =>
    obtain ⟨-, hjustified, hrest⟩ := h
    exact List.forall_mem_cons.mpr ⟨hjustified, ih hrest⟩

theorem Code.ofText_eq_nil_iff {text : String} : Code.ofText text = [] ↔ text = "" := by
  unfold Code.ofText
  rw [List.map_eq_nil_iff, String.toList_eq_nil_iff]

variable (hplaced : ∀ node ∈ root.preorder, node.InPlace context.source)
include hplaced

/-- A segment has no code only if nothing of the stretch is left. -/
theorem Segment.Justified.code_eq_nil_iff {segment : Segment} (h : segment.Justified context root) :
    segment.code context.source = [] ↔ segment.leavesCode = false := by
  cases segment with
  | token leaf =>
    -- a token that the parser has put in has no width
    have hplace := hplaced leaf h.1
    unfold code leavesCode
    rw [Code.ofText_eq_nil_iff, decide_eq_false_iff_not, Nat.not_lt]
    exact Node.slice_eq_empty_iff hplace.start_isBoundary hplace.stop_isBoundary
  | gap start stop =>
    obtain ⟨node, hnode, -, hspan⟩ := h
    have hplace := hplaced node hnode
    have hbounds := Node.isBoundary_of_mem_spans hplace.start_isBoundary hplace.stop_isBoundary
      (fun child hchild => hplaced child (Node.mem_preorder_of_child hnode hchild)) _ hspan
    unfold code leavesCode
    rw [Code.ofText_eq_nil_iff, decide_eq_false_iff_not, Nat.not_lt]
    exact Node.slice_eq_empty_iff hbounds.1 hbounds.2
  | lost start stop => exact iff_of_true rfl rfl
  | made start stop code => exact iff_of_false h.1 Bool.true_eq_false.mp

/-- **Segments have no code exactly if nothing is left of any of them.** -/
theorem spelled_eq_nil_iff (h : ∀ segment ∈ segments, segment.Justified context root) :
    spelled context.source segments = [] ↔ ∀ segment ∈ segments, segment.leavesCode = false := by
  unfold spelled
  rw [List.flatMap_eq_nil_iff]
  exact forall₂_congr fun segment hsegment => (h segment hsegment).code_eq_nil_iff hplaced

end Left

end LivePreview.Lowering
