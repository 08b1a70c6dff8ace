/-
  LivePreview.Proofs.Lowering.Emitted.Front
  ─────────────────────────────────────────
  **What the code of an expression begins with.**

  The code of an expression begins like its first token, or like the factory where the
  expression begins with an element.  Types that are taken off behind an expression leave its
  front as it is, but an assertion is taken off in front of one, and with it what kept a
  brace from standing first:

      source   () => x as T     () => <T>x!     () => <T>{}     () => <T>{}.a
      code     () => x          () => x         () => {}        () => {}.a

  In the body of an arrow function a brace that stands first opens a block, so that the body
  is no expression any more.  This happens exactly where the front behind the assertions is a
  brace (`lower_arrowBody`).
-/
import LivePreview.Proofs.Lowering.Emitted.Call

namespace LivePreview.Lowering

open LivePreview.Syntax (Node)

variable {context : Context} {node : Node}

/-! ## §1. Fronts -/

/-- The front of an expression: the nodes from whose fronts something is taken off, and the text
that its code begins with. -/
inductive FrontOf (context : Context) : Node → List Node → String → Prop where
  /-- A token is copied. -/
  | token {node : Node} (hkind : node.kind ∉ ruledKinds) (hleaf : node.children = [])
    (hwide : context.text node ≠ "") : FrontOf context node [] (context.text node)
  /-- An element becomes a call of the factory. -/
  | element {node : Node} (hkind : node.kind ∈ elementKinds) :
    FrontOf context node [] (context.options.factory ++ "(")
  /-- Of an expression with a type beside it the expression is left. -/
  | unwrapped {node operand : Node} {taken : List Node} {front : String}
    (hoperand : unwrapped? node = some operand)
    (hstart : node.kind ∈ wrapperKinds → operand.start = node.start)
    (h : FrontOf context operand taken front) : FrontOf context node (node :: taken) front
  /-- A call begins with what is called. -/
  | call {node function : Node} {rest taken : List Node} {front : String} (hkind : node.kind = "call_expression")
    (hchildren : node.children = function :: rest) (hfield : function.field? ≠ some "arguments")
    (hstart : function.start = node.start) (h : FrontOf context function taken front) :
    FrontOf context node taken front
  /-- Before the parameters of an arrow function there may be those of its type. -/
  | generic {node types parameters : Node} {rest taken : List Node} {front : String}
    (hkind : node.kind = "arrow_function") (hchildren : node.children = types :: parameters :: rest)
    (htypes : types.kind ∈ removedKinds) (hstart : types.start = node.start)
    (h : FrontOf context parameters taken front) :
    FrontOf context node (node :: taken) (Node.slice context.source types.stop parameters.start ++ front)
  /-- Any other expression begins with its first child. -/
  | compound {node first : Node} {rest taken : List Node} {front : String} (hkind : node.kind ∉ ruledKinds)
    (hkept : droppedTokens node.kind = []) (hchildren : node.children = first :: rest)
    (hstart : first.start = node.start) (h : FrontOf context first taken front) :
    FrontOf context node taken front

/-- A front is never empty. -/
theorem FrontOf.ne_empty {taken : List Node} {front : String} (h : FrontOf context node taken front) :
    front ≠ "" := by
  induction h with
  | token _ _ hwide => exact hwide
  | element _ => exact fun hempty => absurd (String.append_eq_empty_iff.mp hempty).2 (by decide)
  | unwrapped _ _ _ ih => exact ih
  | call _ _ _ _ _ ih => exact ih
  | generic _ _ _ _ _ ih => exact fun hempty => ih (String.append_eq_empty_iff.mp hempty).2
  | compound _ _ _ _ _ ih => exact ih

/-! ## §2. Steps that lead with a text -/

/-- Whatever the step yields begins with the text. -/
def Leads (front : String) (step : Emit Code) : Prop :=
  ∀ before code after, step.run before = .ok (code, after) → Code.ofText front <+: code

section Leads

variable {α : Type} {front : String}

theorem leads_pure {code : Code} (h : Code.ofText front <+: code) : Leads front (pure code) := by
  intro before _ after hrun
  cases hrun
  exact h

theorem Leads.bind {step : Emit α} {next : α → Emit Code} (h : ∀ a, Leads front (next a)) :
    Leads front (step >>= next) := by
  intro before code after hrun
  rw [StateT.run_bind] at hrun
  obtain ⟨⟨a, between⟩, -, hrest⟩ := Result.bind_eq_ok_iff.mp hrun
  exact h a between code after hrest

/-- Drafts lead with what stands in front of the first one and what that one leads with. -/
theorem leads_assembleFrom (source : String) (stop position : Nat) {draft : Draft} (drafts : List Draft)
    (h : Leads front draft.emission) :
    Leads (Node.slice source position draft.node.start ++ front)
      (Draft.assembleFrom source stop position (draft :: drafts)) := by
  intro before code after hrun
  unfold Draft.assembleFrom at hrun
  rw [StateT.run_bind] at hrun
  obtain ⟨⟨own, between⟩, hown, hrun⟩ := Result.bind_eq_ok_iff.mp hrun
  rw [StateT.run_bind] at hrun
  obtain ⟨⟨rest, last⟩, -, hdone⟩ := Result.bind_eq_ok_iff.mp hrun
  cases hdone
  rw [Code.ofText_append]
  exact ((List.prefix_append_right_inj _).mpr (h _ _ _ hown)).trans (List.prefix_append _ rest)

/-- A node leads with what its first child leads with. -/
theorem leads_assemble {draft : Draft} {drafts : List Draft} (hstart : draft.node.start = node.start)
    (h : Leads front draft.emission) : Leads front (Draft.assemble context node (draft :: drafts)) := by
  have hleads := leads_assembleFrom context.source node.stop node.start drafts h
  rw [hstart, Node.slice_of_le (Nat.le_refl _), String.empty_append] at hleads
  exact hleads

theorem leads_factoryCall (tag : String) (properties : Code) (children : List Code) :
    Leads (context.options.factory ++ "(") (pure (factoryCall context tag properties children)) := by
  refine leads_pure ?_
  unfold factoryCall
  rw [List.append_assoc]
  exact List.prefix_append _ _

theorem leads_jsxElement (children : List Draft) :
    Leads (context.options.factory ++ "(") (jsxElement context node children) := by
  unfold jsxElement selfClosingElement fragmentElement contentElement
  refine .bind fun _ => ?_
  split
  · exact .bind fun _ => leads_factoryCall _ _ _
  · split
    · exact .bind fun _ => .bind fun _ => .bind fun _ => leads_factoryCall _ _ _
    · exact .bind fun _ => .bind fun _ => .bind fun _ => .bind fun _ => leads_factoryCall _ _ _

end Leads

/-! ## §3. The code of an expression -/

theorem isAssembled_of_front (hkind : node.kind ∉ ruledKinds) : IsAssembled context node :=
  isAssembled_of_kind rfl hkind

theorem emit_compound {first : Node} {rest : List Node} (hkind : node.kind ∉ ruledKinds)
    (hkept : droppedTokens node.kind = []) (hchildren : node.children = first :: rest) :
    emit context node = Draft.assemble context node (draft context first :: rest.map (draft context)) := by
  rw [emit_eq, emission_of_isAssembled (isAssembled_of_front hkind), hkept, dropTokens_nil, hchildren,
    List.map_cons]

theorem emit_element (hkind : node.kind ∈ elementKinds) :
    emit context node = jsxElement context node (node.children.map (draft context)) := by
  have hall : ∀ kind ∈ elementKinds, kind ∉ removedKinds ++ wrapperKinds ++ ["readonly"] := by decide
  rw [emit_eq, emission_of_construct rfl (hall _ hkind)]
  unfold elementKinds at hkind
  simp only [List.mem_cons, List.not_mem_nil, or_false] at hkind
  rcases hkind with hkind | hkind | hkind <;> (unfold constructEmission; rw [hkind]; rfl)

/-- Whether a call is one of `import` or not, what is called stays. -/
theorem emit_call {function : Node} {rest : List Node} {front : String} (hkind : node.kind = "call_expression")
    (hchildren : node.children = function :: rest) (hfield : function.field? ≠ some "arguments")
    (hstart : function.start = node.start) (h : Leads front (emit context function)) :
    Leads front (emit context node) := by
  have hfirst : Draft.hasField "arguments" (draft context function) = false := by
    unfold Draft.hasField
    rw [node_draft]
    exact beq_eq_false_iff_ne.mpr hfield
  have hassembled (drafts : List Draft) :
      Leads front (Draft.assemble context node (draft context function :: drafts)) :=
    leads_assemble (by rw [node_draft, hstart]) h
  rw [emit_eq, emission_of_construct hkind (by decide), constructEmission, hkind, hchildren, List.map_cons]
  show Leads front (callExpression context node _)
  unfold callExpression
  split
  · exact hassembled _
  · refine .bind fun literal => ?_
    dsimp only
    rw [Draft.replaceFirst, if_neg (by rw [hfirst]; exact Bool.false_ne_true)]
    exact hassembled _

/-- The parameters of the type leave nothing in front of the others. -/
theorem leads_generic {types parameters : Node} {rest : List Node} {front : String}
    (hkind : node.kind = "arrow_function") (hchildren : node.children = types :: parameters :: rest)
    (htypes : types.kind ∈ removedKinds) (hstart : types.start = node.start)
    (h : Leads front (emit context parameters)) :
    Leads (Node.slice context.source types.stop parameters.start ++ front) (emit context node) := by
  have hnothing : (draft context types).emission = pure [] := by
    show emit context types = _
    rw [emit_eq, emission, if_pos (List.contains_iff_mem.mpr htypes)]
  have hrest := leads_assembleFrom context.source node.stop types.stop (rest.map (draft context)) h
  rw [node_draft] at hrest
  rw [emit_compound (by rw [hkind]; decide) (by rw [hkind]; rfl) hchildren]
  show Leads _ (Draft.assembleFrom _ _ _ _)
  rw [Draft.assembleFrom, hnothing, pure_bind, node_draft, hstart, Node.slice_of_le (Nat.le_refl _),
    List.map_cons]
  intro before code after hrun
  rw [StateT.run_bind] at hrun
  obtain ⟨⟨others, last⟩, hothers, hdone⟩ := Result.bind_eq_ok_iff.mp hrun
  cases hdone
  exact hrest _ _ _ hothers

/-- **The code of an expression begins with its front.** -/
theorem FrontOf.leads {taken : List Node} {front : String} (h : FrontOf context node taken front) :
    Leads front (emit context node) := by
  induction h with
  | token hkind hleaf _ =>
    rw [emit_leaf (isAssembled_of_front hkind) hleaf]
    exact leads_pure List.prefix_rfl
  | element hkind =>
    rw [emit_element hkind]
    exact leads_jsxElement _
  | unwrapped hoperand _ _ ih =>
    rw [emit_of_unwrapped hoperand]
    exact ih
  | call hkind hchildren hfield hstart _ ih => exact emit_call hkind hchildren hfield hstart ih
  | generic hkind hchildren htypes hstart _ ih => exact leads_generic hkind hchildren htypes hstart ih
  | compound hkind hkept hchildren hstart _ ih =>
    rw [emit_compound hkind hkept hchildren]
    exact leads_assemble (by rw [node_draft, hstart]) ih

/-! ## §4. The text of an expression -/

/-- A node that starts where another one does begins with the text of that one. -/
theorem head?_text_of_start {inner : Node} (hplace : node.InPlace context.source)
    (hinner : inner.InPlace context.source) (hchild : inner ∈ node.children) (hstart : inner.start = node.start)
    (hwide : context.text inner ≠ "") :
    (context.text node).toList.head? = (context.text inner).toList.head? := by
  have hstop := (hplace.inRow.bounds hchild).2.2
  have htext : context.text node = context.text inner ++ Node.slice context.source inner.stop node.stop := by
    unfold Context.text Node.text
    rw [← hstart]
    exact (Node.slice_append hinner.start_isBoundary hinner.stop_isBoundary hplace.stop_isBoundary
      hinner.le hstop).symm
  rw [htext, String.toList_append]
  exact List.head?_append_of_ne_nil _ (by rwa [Ne, String.toList_eq_nil_iff])

theorem kind_of_unwrapped? {operand : Node} (h : unwrapped? node = some operand) :
    node.kind ∈ wrapperKinds ∨ node.kind = "type_assertion" := by
  unfold unwrapped? at h
  split at h
  · next hwraps => exact .inl (List.contains_iff_mem.mp hwraps)
  · split at h
    · next hkind => exact .inr (eq_of_beq hkind)
    · cases h

/-- The front of an expression is that of its text, or the factory, or something has been taken off. -/
theorem FrontOf.head?_eq {taken : List Node} {front : String}
    (hplaced : ∀ inner ∈ node.preorder, inner.InPlace context.source) (h : FrontOf context node taken front) :
    (context.text node ≠ "" ∧ front.toList.head? = (context.text node).toList.head?) ∨
      front = context.options.factory ++ "(" ∨
      ∃ outer ∈ taken, outer.kind = "type_assertion" ∨ outer.kind = "arrow_function" := by
  -- what starts a child starts the node, unless something is taken off in front of it
  have hfirst {node inner : Node} {front : String} (hplaced : ∀ inner ∈ node.preorder, inner.InPlace context.source)
      (hchild : inner ∈ node.children) (hstart : inner.start = node.start)
      (h : context.text inner ≠ "" ∧ front.toList.head? = (context.text inner).toList.head?) :
      context.text node ≠ "" ∧ front.toList.head? = (context.text node).toList.head? := by
    have hinner := Node.mem_preorder_of_mem_children hchild (Node.mem_preorder_self inner)
    have hhead := head?_text_of_start (hplaced node (Node.mem_preorder_self node)) (hplaced inner hinner)
      hchild hstart h.1
    refine ⟨fun hempty => h.1 ?_, h.2.trans hhead.symm⟩
    rw [hempty] at hhead
    exact String.toList_eq_nil_iff.mp (List.head?_eq_none_iff.mp hhead.symm)
  have hbelow {node inner : Node} (hplaced : ∀ inner ∈ node.preorder, inner.InPlace context.source)
      (hchild : inner ∈ node.children) : ∀ other ∈ inner.preorder, other.InPlace context.source :=
    fun other hother => hplaced other (Node.mem_preorder_of_mem_children hchild hother)
  induction h with
  | token _ _ hwide => exact .inl ⟨hwide, rfl⟩
  | element _ => exact .inr (.inl rfl)
  | unwrapped hoperand hstart _ ih =>
    have hchild := mem_children_of_unwrapped hoperand
    rcases kind_of_unwrapped? hoperand with hwraps | hassertion
    · rcases ih (hbelow hplaced hchild) with htext | hfactory | ⟨outer, hmem, hkind⟩
      · exact .inl (hfirst hplaced hchild (hstart hwraps) htext)
      · exact .inr (.inl hfactory)
      · exact .inr (.inr ⟨outer, List.mem_cons_of_mem _ hmem, hkind⟩)
    · exact .inr (.inr ⟨_, List.mem_cons_self, .inl hassertion⟩)
  | call _ hchildren _ hstart _ ih =>
    have hchild := hchildren ▸ List.mem_cons_self
    exact (ih (hbelow hplaced hchild)).imp_left (hfirst hplaced hchild hstart)
  | generic hkind _ _ _ _ _ => exact .inr (.inr ⟨_, List.mem_cons_self, .inr hkind⟩)
  | compound _ _ hchildren hstart _ ih =>
    have hchild := hchildren ▸ List.mem_cons_self
    exact (ih (hbelow hplaced hchild)).imp_left (hfirst hplaced hchild hstart)

/-! ## §5. Lowered modules -/

/-- The text is the code of the node, with the literals of specifiers in it, and it stands in the module. -/
def StandsIn (lowered : LoweredModule) (context : Context) (node : Node) (text : List Char) : Prop :=
  ∃ before code after specifiers front back, (emit context node).run before = .ok (code, after) ∧
    Code.filled specifiers code = text ∧ lowered.code.toList = front ++ text ++ back

section Lower

variable {parser : Parser} {dialect : Dialect} {options : Options} {source : String}
  {lowered : LoweredModule} {arrow body : Node} {taken : List Node} {front : String}

/-- The code of an emitted node stands in the module. -/
theorem exists_standsIn (hfactory : NulFree options.factory) (hfragment : NulFree options.fragment)
    (hok : lower parser dialect options source = .ok lowered)
    (hemits : Emits ⟨source, options⟩ (parser dialect source) node) :
    ∃ text, StandsIn lowered ⟨source, options⟩ node text := by
  obtain ⟨hsource, code, state, hrun, hfinish⟩ := lower_eq_ok hok
  have hclean : code.IsClean state.sites.length :=
    (emitModule_eq_ok hrun).1 ⟨hsource, hfactory, hfragment⟩
  unfold emitModule at hrun
  rw [StateT.run_bind] at hrun
  obtain ⟨⟨body, between⟩, hbody, hrest⟩ := Result.bind_eq_ok_iff.mp hrun
  have hmodule : body <:+: code := by
    rcases withPreamble_eq_ok hrest with ⟨-, rfl, -, rfl⟩ | ⟨react, -, rfl, -, rfl⟩
    · exact List.infix_rfl
    · exact (List.suffix_append _ _).isInfix
  obtain ⟨before, own, after, hown, hinfix, -⟩ := exists_run_of_emits hemits hbody
  obtain ⟨opening, closing, rfl⟩ := hinfix.trans hmodule
  refine ⟨Code.filled state.sites own, before, own, after, state.sites, Code.filled state.sites opening,
    Code.filled state.sites closing, hown, rfl, ?_⟩
  rw [hclean.toList_finish hfinish, Code.filled_append, Code.filled_append]

/-- **What the body of an arrow function begins with.**  The code of the body stands in the module, and it
begins with a brace exactly if its front does.  Where nothing but ascriptions are taken off, it does so
only if the text of the body does, or the factory of an element. -/
theorem lower_arrowBody (hfactory : NulFree options.factory) (hfragment : NulFree options.fragment)
    (hplaced : ∀ node ∈ (parser dialect source).preorder, node.InPlace source)
    (hok : lower parser dialect options source = .ok lowered)
    (hemits : Emits ⟨source, options⟩ (parser dialect source) arrow) (harrow : arrow.kind = "arrow_function")
    (hbody : arrow.childByField? "body" = some body) (hfront : FrontOf ⟨source, options⟩ body taken front) :
    ∃ text, StandsIn lowered ⟨source, options⟩ body text ∧
      (text.head? = some '\x7b' ↔ front.toList.head? = some '\x7b') ∧
      (text.head? = some '\x7b' →
        (body.text source).toList.head? = some '\x7b' ∨ options.factory.toList.head? = some '\x7b' ∨
          ∃ outer ∈ taken, outer.kind = "type_assertion" ∨ outer.kind = "arrow_function") := by
  have hassembled : IsAssembled ⟨source, options⟩ arrow := isAssembled_of_kind harrow (by decide)
  have hchild : body ∈ arrow.children := List.mem_of_find?_eq_some hbody
  have hinner : Emits ⟨source, options⟩ (parser dialect source) body :=
    .part hemits (by rwa [emittedParts_of_isAssembled hassembled (by rw [harrow]; rfl)])
  obtain ⟨text, hstands⟩ := exists_standsIn hfactory hfragment hok hinner
  have htext : text.head? = front.toList.head? := by
    obtain ⟨before, code, after, specifiers, -, -, hrun, rfl, -⟩ := hstands
    obtain ⟨rest, rfl⟩ := hfront.leads before code after hrun
    rw [Code.filled_append, Code.filled_ofText]
    exact List.head?_append_of_ne_nil _ (by rw [Ne, String.toList_eq_nil_iff]; exact hfront.ne_empty)
  refine ⟨text, hstands, by rw [htext], fun hbrace => ?_⟩
  rw [htext] at hbrace
  have hinside := Node.preorder_subset hinner.mem_preorder
  rcases hfront.head?_eq fun node hnode => hplaced node (hinside hnode) with ⟨-, hhead⟩ | rfl | htaken
  · exact .inl (hhead ▸ hbrace)
  · -- the bracket behind the factory is no brace
    rw [String.toList_append] at hbrace
    cases hname : options.factory.toList with
    | nil =>
      rw [hname] at hbrace
      exact absurd hbrace (by decide)
    | cons c cs =>
      rw [hname] at hbrace
      exact .inr (.inl hbrace)
  · exact .inr (.inr htaken)

end Lower

/-- The body of an arrow function: an operand from the eighth character on, behind `<T>`. -/
def assertedBody (operand : Node) : Node :=
  ⟨"type_assertion", true, false, 4, operand.stop, some "body",
    [⟨"type_arguments", true, false, 4, 7, none,
        [tokenNode "<" 4 5, ⟨"type_identifier", true, false, 5, 6, none, []⟩, tokenNode ">" 6 7]⟩,
      operand]⟩

/-- An arrow function with the body. -/
def assertedArrow (operand : Node) : Node :=
  ⟨"arrow_function", true, false, 0, operand.stop, none,
    [⟨"formal_parameters", true, false, 0, 2, some "parameters", [tokenNode "(" 0 1, tokenNode ")" 1 2]⟩,
      tokenNode "=>" 2 4, assertedBody operand]⟩

/-- A program of the arrow function alone. -/
def assertedProgram (operand : Node) : Node :=
  ⟨"program", true, false, 0, operand.stop, none,
    [⟨"expression_statement", true, false, 0, operand.stop, none, [assertedArrow operand]⟩]⟩

theorem emits_assertedArrow (operand : Node) : Emits context (assertedProgram operand) (assertedArrow operand) :=
  .part (.part .self (List.mem_of_getElem? (i := 0) rfl)) (List.mem_of_getElem? (i := 0) rfl)

/-- The operand of `()=><T>x`. -/
def nameOperand : Node :=
  ⟨"identifier", true, false, 7, 8, none, []⟩

theorem lower_nameOperand :
    lower (fun _ _ => assertedProgram nameOperand) .typescript {} "()=><T>x" = .ok ⟨"()=>x", [], [], false⟩ := by
  unfold lower
  rw [String.contains_char_eq, if_neg (by decide)]
  decide +kernel

/-- The body begins with the name. -/
theorem lower_arrowBody_name :
    let lowered : LoweredModule := ⟨"()=>x", [], [], false⟩
    ∃ text, StandsIn lowered ⟨"()=><T>x", {}⟩ (assertedBody nameOperand) text ∧ text.head? ≠ some '\x7b' := by
  intro lowered
  have hfront : FrontOf ⟨"()=><T>x", {}⟩ (assertedBody nameOperand) [assertedBody nameOperand] "x" :=
    .unwrapped rfl (by decide) (.token (by decide) rfl (by decide))
  obtain ⟨text, hstands, hiff, -⟩ := lower_arrowBody (by decide) (by decide) (by decide +kernel) lower_nameOperand
    (emits_assertedArrow nameOperand) rfl rfl hfront
  exact ⟨text, hstands, fun hbrace => absurd (hiff.mp hbrace) (by decide)⟩

/-- The operand of `()=><T>{}`. -/
def objectOperand : Node :=
  ⟨"object", true, false, 7, 9, none, [tokenNode "\x7b" 7 8, tokenNode "\x7d" 8 9]⟩

/-- **A body that becomes a block.**  The body is an object behind an assertion, and its code begins with a
brace: the arrow function has no result any more. -/
theorem lower_assertion_block :
    let context : Context := ⟨"()=><T>\x7b\x7d", {}⟩
    FrontOf context (assertedBody objectOperand) [assertedBody objectOperand] "\x7b" ∧
      lower (fun _ _ => assertedProgram objectOperand) .typescript {} context.source
        = .ok ⟨"()=>\x7b\x7d", [], [], false⟩ := by
  intro context
  have hbrace : FrontOf ⟨"()=><T>\x7b\x7d", {}⟩ (tokenNode "\x7b" 7 8) [] "\x7b" :=
    .token (by decide) rfl (by decide)
  refine ⟨.unwrapped rfl (by decide) (.compound (by decide) rfl rfl rfl hbrace), ?_⟩
  unfold lower
  rw [String.contains_char_eq, if_neg (by decide)]
  decide +kernel

end LivePreview.Lowering
