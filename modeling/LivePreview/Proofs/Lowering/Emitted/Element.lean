/-
  LivePreview.Proofs.Lowering.Emitted.Element
  ───────────────────────────────────────────
  **The arguments of the call that an element becomes.**

  Behind the tag and the properties, the call for an element has what stands between its tags
  as arguments.  The nodes that are no text stand in a row there, and the text between two of
  them is one run, whatever texts and character references it is made of:

      source   <p>x &lt; {y} z{/* w */}<q/></p>
      runs     "x &lt; "   " z"   ""   ""
      code     React.createElement("p", null, "x < ", y, " z", React.createElement("q", null))

  The arguments are those of the runs and of the nodes between them, in this order (`Argued`,
  `lower_element_arguments`).  A run is an argument if anything is left of it, an element is
  one, and so is the expression in braces.  Comments are none, but only those of one kind are
  known: one that begins with `<!--` is taken for an expression.
-/
import LivePreview.Proofs.Lowering.Emitted.Front
import LivePreview.Proofs.Lowering.Script

namespace LivePreview.Lowering

open LivePreview.Syntax (Node)

variable {context : Context} {element : Node}

/-! ## §1. What stands between tags -/

/-- The node belongs to the text between tags. -/
def isText (node : Node) : Bool :=
  node.kind == "jsx_text" || node.kind == "html_character_reference"

/-- The nodes between tags that are no text. -/
def standalone (inner : List Node) : List Node :=
  inner.filter fun child => child.isNamed && !isText child

/-- An element has a head, which names its tag and holds its properties, and nodes from one offset to
another. -/
inductive Content (element : Node) : Option Node → Nat → Nat → List Node → Prop where
  /-- Between an opening and a closing tag. -/
  | tagged {opening closing : Node} {inner : List Node} (hkind : element.kind = "jsx_element")
    (hchildren : element.children = opening :: (inner ++ [closing]))
    (hopening : opening.field? = some "open_tag") (hclosing : closing.field? = some "close_tag")
    (hinner : ∀ child ∈ opening :: inner, child.field? ≠ some "close_tag")
    (hwide : opening.start < opening.stop) (hwide' : closing.start < closing.stop) :
    Content element (some opening) opening.stop closing.start inner
  /-- Between the brackets of a fragment that is a node of its own. -/
  | fragment {left right left' slash right' : Node} {inner : List Node} (hkind : element.kind = "jsx_fragment")
    (hchildren : element.children = left :: right :: (inner ++ [left', slash, right']))
    (htokens : ∀ token ∈ [left, right, left', slash, right'], token.isNamed = false) :
    Content element none right.stop left'.start inner
  /-- An element without content is its own tag. -/
  | closed (hkind : element.kind = "jsx_self_closing_element") :
    Content element (some element) element.stop element.stop []

namespace Content

variable {source : String} {head? : Option Node} {start stop : Nat} {inner : List Node}

theorem kind_mem (h : Content element head? start stop inner) : element.kind ∈ elementKinds := by
  cases h with
  | tagged hkind => exact hkind ▸ by decide
  | fragment hkind => exact hkind ▸ by decide
  | closed hkind => exact hkind ▸ by decide

theorem subset (h : Content element head? start stop inner) : inner ⊆ element.children := by
  cases h with
  | tagged _ hchildren =>
    rw [hchildren]
    exact fun child hchild => List.mem_cons_of_mem _ (List.mem_append_left _ hchild)
  | fragment _ hchildren =>
    rw [hchildren]
    exact fun child hchild => List.mem_cons_of_mem _ (List.mem_cons_of_mem _ (List.mem_append_left _ hchild))
  | closed => exact List.nil_subset _

/-- The nodes between the tags stand in a row. -/
theorem inRow (h : Content element head? start stop inner) (hplace : element.InPlace source) :
    Node.InRow stop start inner := by
  have hrow := hplace.inRow
  cases h with
  | tagged _ hchildren =>
    rw [hchildren] at hrow
    exact hrow.2.2.split.1
  | fragment _ hchildren =>
    rw [hchildren] at hrow
    exact hrow.2.2.2.2.split.1
  | closed => exact Nat.le_refl _

/-- The tags end at boundaries. -/
theorem isBoundary (h : Content element head? start stop inner)
    (hplaced : ∀ other ∈ element.preorder, other.InPlace source) :
    Node.IsBoundary source start ∧ Node.IsBoundary source stop := by
  have hself := hplaced element (Node.mem_preorder_self element)
  have hbelow {child : Node} (hchild : child ∈ element.children) : child.InPlace source :=
    hplaced child (Node.mem_preorder_of_mem_children hchild (Node.mem_preorder_self child))
  cases h with
  | tagged _ hchildren =>
    exact ⟨(hbelow (by simp [hchildren])).stop_isBoundary, (hbelow (by simp [hchildren])).start_isBoundary⟩
  | fragment _ hchildren =>
    exact ⟨(hbelow (by simp [hchildren])).stop_isBoundary, (hbelow (by simp [hchildren])).start_isBoundary⟩
  | closed => exact ⟨hself.stop_isBoundary, hself.stop_isBoundary⟩

end Content

/-! ## §2. The children that are emitted -/

section Filter

variable {start stop : Nat} {inner : List Node}

theorem isInnerChild_eq (start stop : Nat) (child : Node) :
    isInnerChild start stop (draft context child)
      = (decide (start ≤ child.start) && decide (child.stop ≤ stop) && (child.isNamed && !isText child)) := by
  rw [isInnerChild_draft]
  unfold isText bne
  rw [Bool.not_or]
  grind

/-- Nodes between two offsets are emitted if they are no text. -/
theorem filter_inner (hrow : Node.InRow stop start inner) :
    (inner.map (draft context)).filter (isInnerChild start stop) = (standalone inner).map (draft context) := by
  rw [List.filter_map, standalone]
  congr 1
  refine List.filter_congr fun child hchild => ?_
  obtain ⟨hstart, -, hstop⟩ := hrow.bounds hchild
  rw [Function.comp_apply, isInnerChild_eq, decide_eq_true hstart, decide_eq_true hstop, Bool.true_and,
    Bool.true_and]

/-- A tag that is not empty lies outside. -/
theorem isInnerChild_tag {tag : Node} (h : tag.start < start ∨ stop < tag.stop) :
    isInnerChild start stop (draft context tag) = false := by
  rw [isInnerChild_eq]
  rcases h with h | h
  · rw [decide_eq_false (Nat.not_le.mpr h)]
    rfl
  · rw [decide_eq_false (Nat.not_le.mpr h), Bool.and_false]
    rfl

theorem isInnerChild_token {token : Node} (h : token.isNamed = false) :
    isInnerChild start stop (draft context token) = false := by
  rw [isInnerChild_eq, h, Bool.false_and, Bool.and_false]

/-- **Of the children of an element those between its tags are emitted.** -/
theorem Content.jsxChildren_eq {head? : Option Node} (h : Content element head? start stop inner)
    (hplace : element.InPlace context.source) (hopen : element.kind ≠ "jsx_self_closing_element") :
    jsxChildren context start stop (element.children.map (draft context))
      = jsxArguments context stop start ((standalone inner).map (draft context)) := by
  unfold jsxChildren
  rw [← filter_inner (h.inRow hplace)]
  congr 1
  cases h with
  | tagged _ hchildren _ _ _ hwide hwide' =>
    rw [hchildren]
    simp [isInnerChild_tag (.inl hwide), isInnerChild_tag (.inr hwide')]
  | fragment _ hchildren htokens =>
    simp only [List.forall_mem_cons] at htokens
    obtain ⟨hleft, hright, hleft', hslash, hright', -⟩ := htokens
    rw [hchildren]
    simp [isInnerChild_token, *]
  | closed hkind => exact absurd hkind hopen

end Filter

/-! ## §3. The call -/

/-- The tag that stands in the head of an element. -/
def headTag (context : Context) : Option Node → String
  | some head => jsxTag context head
  | none => context.options.fragment

/-- Emit the properties that stand in the head of an element. -/
def headProperties (context : Context) : Option Node → Emit Code
  | some head => jsxProperties context (head.children.map (draft context))
  | none => return Code.ofText "null"

theorem runArguments_empty : runArguments "" = pure [] :=
  rfl

/-- The tags are found by their fields. -/
theorem childByField?_tags {opening closing : Node} {inner : List Node}
    (hchildren : element.children = opening :: (inner ++ [closing]))
    (hopening : opening.field? = some "open_tag") (hclosing : closing.field? = some "close_tag")
    (hinner : ∀ child ∈ opening :: inner, child.field? ≠ some "close_tag") :
    element.childByField? "open_tag" = some opening ∧ element.childByField? "close_tag" = some closing := by
  have hnone : (opening :: inner).find? (fun child => child.field? == some "close_tag") = none :=
    List.find?_eq_none.mpr fun child hchild hfield => hinner child hchild (eq_of_beq hfield)
  unfold Node.childByField?
  constructor
  · rw [hchildren, List.find?_cons_of_pos]
    exact beq_iff_eq.mpr hopening
  · rw [hchildren, ← List.cons_append, List.find?_append, hnone, Option.none_or, List.find?_cons_of_pos]
    exact beq_iff_eq.mpr hclosing

/-- **An element becomes a call** with its tag, its properties and what stands between its tags. -/
theorem Content.emit_eq {head? : Option Node} {start stop : Nat} {inner : List Node}
    (h : Content element head? start stop inner) (hplace : element.InPlace context.source) :
    emit context element = do
      modify fun state => { state with usesJsx := true }
      let properties ← headProperties context head?
      let arguments ← jsxArguments context stop start ((standalone inner).map (draft context))
      return factoryCall context (headTag context head?) properties arguments := by
  have hchildren := h.jsxChildren_eq hplace
  rw [emit_element h.kind_mem, jsxElement]
  congr 1
  funext _
  cases h with
  | @tagged opening closing inner hkind hall hopening hclosing hinner =>
    obtain ⟨hopen, hclose⟩ := childByField?_tags hall hopening hclosing hinner
    rw [← hchildren (by rw [hkind]; decide), hkind]
    show contentElement _ _ = _
    unfold contentElement
    rw [← children_draft, byField?_children_draft, byField?_children_draft, hopen, hclose]
    show (do
      let properties ← jsxProperties context (draft context opening).children
      let arguments ← jsxChildren context (draft context opening).node.stop (draft context closing).node.start _
      return factoryCall context (jsxTag context (draft context opening).node) properties arguments) = _
    rw [children_draft, node_draft, node_draft]
    rfl
  | @fragment left right left' slash right' inner hkind hall =>
    have hstart : element.children[1]? = some right := by
      rw [hall]
      rfl
    have hstop : element.children.reverse[2]? = some left' := by
      rw [hall]
      simp
    rw [← hchildren (by rw [hkind]; decide), hkind]
    show fragmentElement _ _ _ = _
    unfold fragmentElement
    rw [hstart, hstop]
    rfl
  | closed hkind =>
    rw [hkind]
    show selfClosingElement _ _ _ = _
    unfold selfClosingElement
    show _ = (do
      let properties ← headProperties context (some element)
      let arguments ← runArguments (Node.slice context.source element.stop element.stop)
      return factoryCall context _ properties arguments)
    rw [Node.slice_of_le (Nat.le_refl _), runArguments_empty]
    rfl

/-! ## §4. Arguments -/

/-- What is left of a run of text, as arguments. -/
def textArgument (text : String) : List Code :=
  if text.isEmpty then [] else [Code.ofText (Json.literal text)]

/-- The arguments of nodes and of the runs of text in front of them, between them and behind them. -/
inductive Argued (context : Context) : State → List Node → List String → List Code → State → Prop where
  | last {state : State} {run text : String} (htext : JsxText.ofRun run = .ok text) :
    Argued context state [] [run] (textArgument text) state
  | child {before between after : State} {run text : String} {child : Node} {children : List Node}
    {runs : List String} {own rest : List Code} (htext : JsxText.ofRun run = .ok text)
    (hown : Chain context before (childParts child) own between)
    (hrest : Argued context between children runs rest after) :
    Argued context before (child :: children) (run :: runs) (textArgument text ++ own ++ rest) after

section Argued

variable {before after : State}

theorem run_runArguments_iff {run : String} {arguments : List Code} :
    (runArguments run).run before = .ok (arguments, after) ↔
      ∃ text, JsxText.ofRun run = .ok text ∧ arguments = textArgument text ∧ after = before := by
  unfold runArguments
  cases htext : JsxText.ofRun run with
  | error overlong => exact ⟨nofun, fun ⟨_, hok, _⟩ => nomatch hok⟩
  | ok text =>
    constructor
    · intro hrun
      cases hrun
      exact ⟨text, rfl, rfl, rfl⟩
    · rintro ⟨_, hok, rfl, rfl⟩
      cases hok
      rfl

/-- A node alone is a chain. -/
theorem chain_singleton_iff {node : Node} {codes : List Code} :
    Chain context before [node] codes after ↔
      ∃ code, (emit context node).run before = .ok (code, after) ∧ codes = [code] := by
  constructor
  · rintro (_ | ⟨hrun, hrest⟩)
    cases hrest
    exact ⟨_, hrun, rfl⟩
  · rintro ⟨code, hrun, rfl⟩
    exact .cons hrun .nil

theorem chain_nil_iff {codes : List Code} : Chain context before [] codes after ↔ codes = [] ∧ after = before := by
  constructor
  · intro h
    cases h
    exact ⟨rfl, rfl⟩
  · rintro ⟨rfl, rfl⟩
    exact .nil

/-- The arguments of one node. -/
theorem run_singleton_iff {node : Node} {codes : List Code} :
    (emit context node >>= fun code => pure [code]).run before = .ok (codes, after) ↔
      Chain context before [node] codes after := by
  rw [StateT.run_bind, Result.bind_eq_ok_iff, chain_singleton_iff]
  constructor
  · rintro ⟨⟨code, last⟩, hrun, hdone⟩
    cases hdone
    exact ⟨code, hrun, rfl⟩
  · rintro ⟨code, hrun, rfl⟩
    exact ⟨(code, after), hrun, rfl⟩

/-- A child is emitted as its parts. -/
theorem run_jsxChild_iff {child : Node} {codes : List Code} :
    (jsxChild (draft context child)).run before = .ok (codes, after) ↔
      Chain context before (childParts child) codes after := by
  have hnothing : (pure [] : Emit (List Code)).run before = .ok (codes, after) ↔
      Chain context before [] codes after := by
    rw [chain_nil_iff]
    constructor
    · intro hrun
      cases hrun
      exact ⟨rfl, rfl⟩
    · rintro ⟨rfl, rfl⟩
      rfl
  unfold jsxChild childParts
  rw [kind_draft, bracedExpression?_draft]
  split
  · exact hnothing
  · split
    · cases expressionIn? child with
      | none => exact hnothing
      | some expression => exact run_singleton_iff
    · exact run_singleton_iff

/-- **What stands between two offsets is emitted as the runs of text and the nodes between them.** -/
theorem run_jsxArguments_iff {start stop : Nat} {children : List Node} {arguments : List Code} :
    (jsxArguments context stop start (children.map (draft context))).run before = .ok (arguments, after) ↔
      Argued context before children (Node.gaps context.source stop start children) arguments after := by
  induction children generalizing start before arguments with
  | nil =>
    refine run_runArguments_iff.trans ⟨?_, ?_⟩
    · rintro ⟨text, htext, rfl, rfl⟩
      exact .last htext
    · rintro ⟨htext⟩
      exact ⟨_, htext, rfl, rfl⟩
  | cons child children ih =>
    rw [List.map_cons, jsxArguments, node_draft, StateT.run_bind, Result.bind_eq_ok_iff, Node.gaps]
    constructor
    · rintro ⟨⟨first, _⟩, hfirst, hrun⟩
      obtain ⟨text, htext, rfl, rfl⟩ := run_runArguments_iff.mp hfirst
      rw [StateT.run_bind, Result.bind_eq_ok_iff] at hrun
      obtain ⟨⟨own, between⟩, hown, hrun⟩ := hrun
      rw [StateT.run_bind, Result.bind_eq_ok_iff] at hrun
      obtain ⟨⟨rest, _⟩, hrest, hdone⟩ := hrun
      cases hdone
      exact .child htext (run_jsxChild_iff.mp hown) (ih.mp hrest)
    · intro h
      cases h with
      | child htext hown hrest =>
        refine ⟨(_, before), run_runArguments_iff.mpr ⟨_, htext, rfl, rfl⟩, ?_⟩
        rw [StateT.run_bind, Result.bind_eq_ok_iff]
        refine ⟨(_, _), run_jsxChild_iff.mpr hown, ?_⟩
        rw [StateT.run_bind, Result.bind_eq_ok_iff]
        exact ⟨(_, _), ih.mpr hrest, rfl⟩

/-- **The run of an element** emits its properties, and then what stands between its tags. -/
theorem Content.run_iff {head? : Option Node} {start stop : Nat} {inner : List Node} {code : Code}
    (h : Content element head? start stop inner) (hplace : element.InPlace context.source) :
    (emit context element).run before = .ok (code, after) ↔
      ∃ properties between arguments,
        (headProperties context head?).run { before with usesJsx := true } = .ok (properties, between) ∧
        Argued context between (standalone inner) (Node.gaps context.source stop start (standalone inner))
          arguments after ∧
        code = factoryCall context (headTag context head?) properties arguments := by
  rw [h.emit_eq hplace, StateT.run_bind, StateT.run_modify, pure_bind, StateT.run_bind, Result.bind_eq_ok_iff]
  constructor
  · rintro ⟨⟨properties, between⟩, hproperties, hrun⟩
    rw [StateT.run_bind, Result.bind_eq_ok_iff] at hrun
    obtain ⟨⟨arguments, _⟩, harguments, hdone⟩ := hrun
    cases hdone
    exact ⟨properties, between, arguments, hproperties, run_jsxArguments_iff.mp harguments, rfl⟩
  · rintro ⟨properties, between, arguments, hproperties, harguments, rfl⟩
    refine ⟨(properties, between), hproperties, ?_⟩
    rw [StateT.run_bind, Result.bind_eq_ok_iff]
    exact ⟨(arguments, after), run_jsxArguments_iff.mpr harguments, rfl⟩

end Argued

/-! ## §5. Comments -/

/-- The node is a comment of one of the two kinds. -/
def isComment (node : Node) : Bool :=
  node.kind == "comment" || node.kind == "html_comment"

/-- A node that may stand between tags beside the text: an element, braces or a comment. -/
def IsChild (child : Node) : Prop :=
  isElement child = true ∨ child.kind = "jsx_expression" ∨ isComment child = true

/-- What has a value in a node between tags: an element itself, and the expression in braces. -/
def valueIn? (child : Node) : Option Node :=
  if child.kind == "jsx_expression" then child.namedChildren.find? (!isComment ·)
  else if isElement child then some child
  else none

/-- The first node that is no comment of the known kind is the first that is no comment at all, or it is a
comment of the other kind. -/
theorem expressionIn?_eq_iff (node : Node) :
    expressionIn? node = node.namedChildren.find? (!isComment ·) ↔
      ∀ expression, expressionIn? node = some expression → expression.kind ≠ "html_comment" := by
  unfold expressionIn? isComment
  induction node.namedChildren with
  | nil => simp
  | cons child children ih =>
    by_cases hcomment : child.kind = "comment"
    · rw [List.find?_cons_of_neg (by simp [hcomment]), List.find?_cons_of_neg (by simp [hcomment])]
      exact ih
    · rw [List.find?_cons_of_pos (by simpa using hcomment)]
      by_cases hother : child.kind = "html_comment"
      · rw [List.find?_cons_of_neg (by simp [hother])]
        refine iff_of_false (fun heq => ?_) fun h => h child rfl hother
        have hvalue := List.find?_some heq.symm
        simp [hother] at hvalue
      · rw [List.find?_cons_of_pos (by simp [hcomment, hother])]
        exact iff_of_true rfl fun expression hexpression => Option.some.inj hexpression ▸ hother

/-- **What is emitted for a child is what has a value in it**, unless that is a comment. -/
theorem childParts_eq_iff {child : Node} (h : IsChild child) :
    childParts child = (valueIn? child).toList ↔ ∀ part ∈ childParts child, part.kind ≠ "html_comment" := by
  unfold childParts valueIn?
  by_cases hbraces : child.kind = "jsx_expression"
  · have hsame {a? b? : Option Node} : a?.toList = b?.toList ↔ a? = b? := by
      cases a? <;> cases b? <;> simp
    rw [hbraces, if_neg (by decide), if_pos (by decide), if_pos (by decide), hsame, expressionIn?_eq_iff]
    simp only [Option.mem_toList]
  · simp only [beq_false_of_ne hbraces, Bool.false_eq_true, if_false]
    rcases h with helement | h | hcomment
    · have hall : ∀ kind ∈ elementKinds, kind ≠ "comment" ∧ kind ≠ "html_comment" := by decide
      obtain ⟨hknown, hother⟩ := hall _ (List.contains_iff_mem.mp helement)
      rw [if_neg (by simpa using hknown), if_pos helement]
      exact iff_of_true rfl (List.forall_mem_singleton.mpr hother)
    · exact absurd h hbraces
    · rcases Bool.or_eq_true_iff.mp hcomment with hkind | hkind
      · have helement : isElement child = false := by
          rw [isElement, eq_of_beq hkind]
          decide
        rw [if_pos hkind, helement, if_neg Bool.false_ne_true]
        exact iff_of_true rfl fun _ hpart => absurd hpart List.not_mem_nil
      · have hother := eq_of_beq hkind
        have helement : isElement child = false := by
          rw [isElement, hother]
          decide
        rw [if_neg (by rw [hother]; decide), helement, if_neg Bool.false_ne_true]
        exact iff_of_false (List.cons_ne_nil _ _) fun hall => hall child (List.mem_singleton_self child) hother

/-! ## §6. Lowered modules -/

section Lower

variable {parser : Parser} {dialect : Dialect} {options : Options} {source : String}
  {lowered : LoweredModule} {head? : Option Node} {start stop : Nat} {inner : List Node}

/-- The call for an emitted element stands in the module. -/
theorem Content.exists_call (hcontent : Content element head? start stop inner) (hfactory : NulFree options.factory)
    (hfragment : NulFree options.fragment) (hok : lower parser dialect options source = .ok lowered)
    (hemits : Emits ⟨source, options⟩ (parser dialect source) element) (hplace : element.InPlace source) :
    ∃ before properties between arguments after specifiers front back,
      (headProperties ⟨source, options⟩ head?).run before = .ok (properties, between) ∧
      Argued ⟨source, options⟩ between (standalone inner) (Node.gaps source stop start (standalone inner))
        arguments after ∧
      lowered.code.toList = front ++ Code.filled specifiers
        (factoryCall ⟨source, options⟩ (headTag ⟨source, options⟩ head?) properties arguments) ++ back := by
  obtain ⟨_, before, code, after, specifiers, front, back, hrun, rfl, hcode⟩ :=
    exists_standsIn hfactory hfragment hok hemits
  obtain ⟨properties, between, arguments, hproperties, harguments, rfl⟩ := (hcontent.run_iff hplace).mp hrun
  exact ⟨_, properties, between, arguments, after, specifiers, front, back, hproperties, harguments, hcode⟩

/-- **The arguments of an element.**  The source between the tags of an emitted element is the runs of text
with the nodes between them, and every text lies in a run.  In the module stands the call for the element,
and behind its tag and its properties the arguments of the runs and of the nodes.  The argument of a node
is what has a value in it, exactly unless a comment that begins with `<!--` is taken for it, which becomes
an argument as it stands. -/
theorem lower_element_arguments (hfactory : NulFree options.factory) (hfragment : NulFree options.fragment)
    (hplaced : ∀ node ∈ (parser dialect source).preorder, node.InPlace source)
    (hok : lower parser dialect options source = .ok lowered)
    (hemits : Emits ⟨source, options⟩ (parser dialect source) element)
    (hcontent : Content element head? start stop inner) :
    (Code.ofText (Node.slice source start stop)
        = weave (Node.gaps source stop start (standalone inner))
            ((standalone inner).map fun child => Code.ofText (child.text source)) ∧
      ∀ text ∈ inner, isText text = true → ∃ span ∈ Node.spans stop start (standalone inner),
        span.1 ≤ text.start ∧ text.stop ≤ span.2) ∧
    (∃ before properties between arguments after specifiers front back,
      (headProperties ⟨source, options⟩ head?).run before = .ok (properties, between) ∧
      Argued ⟨source, options⟩ between (standalone inner) (Node.gaps source stop start (standalone inner))
        arguments after ∧
      lowered.code.toList = front ++ Code.filled specifiers
        (factoryCall ⟨source, options⟩ (headTag ⟨source, options⟩ head?) properties arguments) ++ back) ∧
    ∀ child ∈ standalone inner,
      (IsChild child → (childParts child = (valueIn? child).toList ↔
        ∀ part ∈ childParts child, part.kind ≠ "html_comment")) ∧
      ∀ part ∈ childParts child, part.kind = "html_comment" → part.children = [] →
        emit ⟨source, options⟩ part = return Code.ofText (part.text source) := by
  have hinside := Node.preorder_subset hemits.mem_preorder
  have hbelow : ∀ node ∈ element.preorder, node.InPlace source := fun node hnode => hplaced node (hinside hnode)
  have hplace := hbelow element (Node.mem_preorder_self element)
  have hrow := hcontent.inRow hplace
  refine ⟨⟨?_, fun text htext hkind => ?_⟩, hcontent.exists_call hfactory hfragment hok hemits hplace,
    fun child _ => ⟨childParts_eq_iff, fun part _ hkind hleaf => ?_⟩⟩
  · obtain ⟨hstart, hstop⟩ := hcontent.isBoundary hbelow
    refine @ofText_slice_eq_weave ⟨source, options⟩ _ _ _ hstart hstop (hrow.filter _) fun child hchild => ?_
    have hmem := hcontent.subset (List.mem_filter.mp hchild).1
    exact hbelow child (Node.mem_preorder_of_mem_children hmem (Node.mem_preorder_self child))
  · exact Node.exists_span_of_filter hrow (Nat.le_refl _) htext (by rw [hkind, Bool.not_true, Bool.and_false])
  · exact emit_leaf (isAssembled_of_kind hkind (by decide)) hleaf

end Lower

/-- The tag `<A>`. -/
def openingTag : Node :=
  ⟨"jsx_opening_element", true, false, 0, 3, some "open_tag",
    [tokenNode "<" 0 1, ⟨"identifier", true, false, 1, 2, some "name", []⟩, tokenNode ">" 2 3]⟩

/-- The tag `</A>`. -/
def closingTag (start : Nat) : Node :=
  ⟨"jsx_closing_element", true, false, start, start + 4, some "close_tag",
    [tokenNode "</" start (start + 2), ⟨"identifier", true, false, start + 2, start + 3, some "name", []⟩,
      tokenNode ">" (start + 3) (start + 4)]⟩

/-- An element with nodes between its tags, up to an offset. -/
def taggedElement (inner : List Node) (stop : Nat) : Node :=
  ⟨"jsx_element", true, false, 0, stop + 4, none, openingTag :: (inner ++ [closingTag stop])⟩

/-- A program of the element alone. -/
def taggedProgram (inner : List Node) (stop : Nat) : Node :=
  ⟨"program", true, false, 0, stop + 4, none,
    [⟨"expression_statement", true, false, 0, stop + 4, none, [taggedElement inner stop]⟩]⟩

theorem emits_taggedElement (inner : List Node) (stop : Nat) :
    Emits context (taggedProgram inner stop) (taggedElement inner stop) :=
  .part (.part .self (List.mem_of_getElem? (i := 0) rfl)) (List.mem_of_getElem? (i := 0) rfl)

theorem content_taggedElement {inner : List Node} {stop : Nat}
    (hinner : ∀ child ∈ inner, child.field? ≠ some "close_tag") :
    Content (taggedElement inner stop) (some openingTag) 3 stop inner :=
  @Content.tagged _ openingTag (closingTag stop) inner rfl rfl rfl rfl
    (List.forall_mem_cons.mpr ⟨by decide, hinner⟩) (by decide) (Nat.lt_add_of_pos_right (by decide))

/-- The source with text, braces and an element between the tags. -/
def mixedSource : String :=
  "<A>x\x7bb\x7d&#60;\x7b\x7d<c/></A>"

/-- The nodes between the tags of `mixedSource` that are no text. -/
def mixedNodes : List Node :=
  [⟨"jsx_expression", true, false, 4, 7, none,
      [tokenNode "\x7b" 4 5, ⟨"identifier", true, false, 5, 6, none, []⟩, tokenNode "\x7d" 6 7]⟩,
    ⟨"jsx_expression", true, false, 12, 14, none, [tokenNode "\x7b" 12 13, tokenNode "\x7d" 13 14]⟩,
    ⟨"jsx_self_closing_element", true, false, 14, 18, none,
      [tokenNode "<" 14 15, ⟨"identifier", true, false, 15, 16, some "name", []⟩, tokenNode "/>" 16 18]⟩]

/-- The nodes between the tags of `mixedSource`. -/
def mixedInner : List Node :=
  ⟨"jsx_text", true, false, 3, 4, none, []⟩ :: mixedNodes.take 1
    ++ ⟨"html_character_reference", true, false, 7, 12, none, []⟩ :: mixedNodes.drop 1

/-- The module that `mixedSource` is lowered to. -/
def mixedModule : LoweredModule :=
  ⟨"import React from \"react\";\nReact.createElement(A, null, \"x\", b, \"<\", "
      ++ "React.createElement(\"c\", null))",
    ["react"], [⟨18, 25, "react"⟩], true⟩

theorem lower_mixed :
    lower (fun _ _ => taggedProgram mixedInner 18) .tsx {} mixedSource = .ok mixedModule := by
  unfold lower
  rw [String.contains_char_eq, if_neg (by decide)]
  decide +kernel

/-- Two runs of text are not empty, and two of the three nodes have a value. -/
theorem lower_element_arguments_mixed :
    let context : Context := ⟨mixedSource, {}⟩
    ∃ before properties between arguments after specifiers front back,
      (headProperties context (some openingTag)).run before = .ok (properties, between) ∧
      Argued context between mixedNodes ["x", "&#60;", "", ""] arguments after ∧
      mixedModule.code.toList = front ++ Code.filled specifiers
        (factoryCall context (jsxTag context openingTag) properties arguments) ++ back := by
  intro context
  have hinner : ∀ child ∈ mixedInner, child.field? ≠ some "close_tag" := by decide
  have hgaps : Node.gaps mixedSource 18 3 (standalone mixedInner) = ["x", "&#60;", "", ""] := by decide
  obtain ⟨-, hcode, -⟩ := lower_element_arguments (by decide) (by decide) (by decide +kernel) lower_mixed
    (emits_taggedElement mixedInner 18) (content_taggedElement hinner)
  rwa [hgaps] at hcode

/-- The source with a comment of the other kind between the tags. -/
def markedSource : String :=
  "<A>x<!-- y -->\n</A>"

/-- The comment in `markedSource`. -/
def markedComment : Node :=
  ⟨"html_comment", true, false, 4, 14, none, []⟩

/-- **A comment that becomes an argument.**  Nothing between the tags has a value beside the text, but the
call has the comment as its last argument. -/
theorem lower_element_comment :
    let context : Context := ⟨markedSource, {}⟩
    let inner : List Node := [⟨"jsx_text", true, false, 3, 4, none, []⟩, markedComment]
    Content (taggedElement inner 15) (some openingTag) 3 15 inner ∧
      Emits context (taggedProgram inner 15) (taggedElement inner 15) ∧
      IsChild markedComment ∧ valueIn? markedComment = none ∧
      lower (fun _ _ => taggedProgram inner 15) .tsx {} markedSource
        = .ok ⟨"import React from \"react\";\nReact.createElement(A, null, \"x\", <!-- y -->)", ["react"],
          [⟨18, 25, "react"⟩], true⟩ := by
  intro context inner
  refine ⟨content_taggedElement (by decide), emits_taggedElement inner 15, .inr (.inr rfl), rfl, ?_⟩
  unfold lower
  rw [String.contains_char_eq, if_neg (by decide)]
  decide +kernel

end LivePreview.Lowering
