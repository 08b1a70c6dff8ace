/-
  LivePreview.Proofs.Lowering.Erased.Module
  ─────────────────────────────────────────
  **No type syntax is left in a module.**

  Another text *rewrites* the type syntax of a source if it is the same everywhere else, and if
  the tree of the source fits it (`Rewrites`):

      source     let x:T=y!;
      rewritten  let x  =y ;

  All nodes that are emitted are exposed, so that what stands between their children is clear of
  type syntax.  They are emitted alike over both texts, and both are lowered to the same module
  (`lower_erased`).  What a module may still hold are constructs for which there is no rule: they
  are copied like any other node (`Leaks`).
-/
import LivePreview.Proofs.Lowering.Erased.Rewriting
import LivePreview.Proofs.Lowering.Script

namespace LivePreview.Lowering

open LivePreview.Syntax (Node)

/-! ## §1. Rewritten type syntax -/

section Rewriting

variable {context : Context} {root node : Node} {bare : String}

/-- The context over another source. -/
def Context.over (context : Context) (source : String) : Context :=
  { context with source := source }

/-- The text is the source with other type syntax.  The tree fits it, it is the same wherever the tree has
no type syntax, and it keeps what the rules for the emitted nodes copy in one piece.  No other method is
named as constructors are. -/
structure Rewrites (context : Context) (root : Node) (bare : String) : Prop where
  nulFree : NulFree bare
  inPlace : ∀ node ∈ root.preorder, node.InPlace bare
  slice_eq : ∀ start stop, Node.IsBoundary context.source start → Node.IsBoundary context.source stop →
    Clear context root start stop → Node.slice context.source start stop = Node.slice bare start stop
  read_eq : ∀ node, Emits context root node → ∀ stretch ∈ readStretches node,
    Node.slice context.source stretch.1 stretch.2 = Node.slice bare stretch.1 stretch.2
  isConstructor_eq : ∀ node, Emits context root node → node.kind = "method_definition" →
    isConstructor context node = isConstructor (context.over bare) node

section Layout

variable (hplaced : ∀ other ∈ root.preorder, other.InPlace context.source)
include hplaced

/-- What stands between the children of an exposed node is not rewritten. -/
theorem Rewrites.gapsAlike (h : Rewrites context root bare) (hexposed : Exposed context root node)
    (hconstruct : isTypeConstruct node = false) (hoperand : unwrapped? node = none) :
    GapsAlike context (context.over bare) node := by
  have hnode := hexposed.mem_preorder
  have hplace := hplaced node hnode
  refine Node.gaps_eq_of_spans fun span hspan => ?_
  have hboundary := Node.isBoundary_of_mem_spans hplace.start_isBoundary hplace.stop_isBoundary
    (fun child hchild => hplaced child (Node.mem_preorder_of_child hnode hchild)) span hspan
  exact h.slice_eq span.1 span.2 hboundary.1 hboundary.2
    (hexposed.clear_of_mem_spans hplaced hconstruct hoperand span hspan)

/-- **What is emitted is emitted alike over rewritten type syntax.** -/
theorem Rewrites.same (h : Rewrites context root bare) (hopen : ∀ other ∈ root.preorder, OpensPlain context other)
    (hemits : Emits context root node) : Same context (context.over bare) node := by
  -- by induction on the parts, all of which are emitted with the node
  induction node using forall_of_parts context with
  | h node ih =>
    have hexposed := exposed_of_emits hplaced hopen hemits
    have hnode := hexposed.mem_preorder
    refine same_of_readsAlike
      { options_eq := rfl
        gaps := h.gapsAlike hplaced hexposed
        openGaps := fun part hpart => ?_
        texts := fun part hpart => ?_
        runs := fun span hspan => h.read_eq node hemits span (List.mem_append_right _ hspan)
        isConstructor_eq := h.isConstructor_eq node hemits
        parts := fun part hpart => ih part hpart (.part hemits hpart) }
    · have hexposes := exposes_of_mem_openParts
        (fun other hother => hplaced other (Node.preorder_subset hnode hother)) (hopen node hnode) hpart
      obtain ⟨hconstruct, hoperand⟩ := plain_of_ownSyntax_eq_nil (hopen node hnode part hpart).2
      exact h.gapsAlike hplaced (.child hexposed hexposes) hconstruct hoperand
    · exact h.read_eq node hemits (extent part) (List.mem_append_left _ (List.mem_map_of_mem hpart))

end Layout

end Rewriting

/-! ## §2. What is removed, and what is rejected -/

section Emitted

variable {context : Context} {root node : Node}

/-- Type syntax leaves nothing. -/
theorem leavesNothing_of_isTypeConstruct (h : isTypeConstruct node = true) :
    leavesNothing context node = true := by
  have hkinds : ∀ kind ∈ typeKinds, removedKinds.contains kind = true := by decide
  unfold isTypeConstruct at h
  unfold leavesNothing importsTypes exportsNothing
  simp only [Bool.or_eq_true, Bool.and_eq_true, List.contains_iff_mem] at h hkinds ⊢
  rcases h with (((htype | hreadonly) | himport) | hexport) | hfield
  · exact .inl (.inl (.inl (.inl (hkinds _ htype))))
  · exact .inl (.inl (.inl (.inr hreadonly)))
  · exact .inl (.inl (.inr (himport.imp_right .inl)))
  · exact .inl (.inr (hexport.imp_right .inl))
  · exact .inr hfield

/-- There is no JavaScript for a namespace, an import that requires a module, or an assigned export. -/
def isRejected (node : Node) : Bool :=
  node.kind == "internal_module" || node.kind == "module"
    || (node.kind == "import_statement" && !node.hasToken "type"
      && node.namedChildren.any (·.kind == "import_require_clause"))
    || (node.kind == "export_statement" && !exportsTypes node && node.hasToken "=")

theorem exists_cause_of_isRejected (context : Context) (h : isRejected node = true) :
    ∃ cause, emit context node = reject context node cause := by
  unfold isRejected at h
  simp only [Bool.or_eq_true, Bool.and_eq_true, Bool.not_eq_true', beq_iff_eq] at h
  rcases h with ((hkind | hkind) | ⟨⟨hkind, htype⟩, hrequire⟩) | ⟨⟨hkind, htypes⟩, hassigns⟩
  · refine ⟨.namespaceDeclaration, ?_⟩
    rw [emit_eq, emission_of_construct hkind (by decide), constructEmission, hkind]
    rfl
  · refine ⟨.moduleDeclaration, ?_⟩
    rw [emit_eq, emission_of_construct hkind (by decide), constructEmission, hkind]
    rfl
  · refine ⟨.requireImport, ?_⟩
    rw [emit_eq, emission_of_construct hkind (by decide), constructEmission, hkind]
    refine (importStatement_eq _).trans ?_
    rw [htype, if_neg Bool.false_ne_true, if_pos hrequire]
  · refine ⟨.exportAssignment, ?_⟩
    rw [emit_eq, emission_of_construct hkind (by decide), constructEmission, hkind]
    refine (exportStatement_eq _).trans ?_
    rw [htypes, if_neg Bool.false_ne_true, if_pos hassigns]

/-! ## §3. What is left -/

/-- A construct of types that is copied, as there is no rule for it. -/
inductive Leaks : Node → Node → Prop where
  /-- A first parameter `this`, which only says what a function is called on. -/
  | thisParameter {parameters parameter leak : Node} (hparameters : parameters.kind = "formal_parameters")
    (hfirst : parameters.namedChildren.head? = some parameter)
    (hparameter : parameter.kind = "required_parameter")
    (hpattern : parameter.childByField? "pattern" = some leak) (hthis : leak.kind = "this") :
    Leaks parameters leak
  /-- Another name for a part of a namespace. -/
  | importAlias {leak : Node} (hkind : leak.kind = "import_alias") : Leaks leak leak
  /-- The name of a module for scripts. -/
  | namespaceExport {leak : Node} (hkind : leak.kind = "export_statement") (has : leak.hasToken "as" = true)
    (hnamespace : leak.hasToken "namespace" = true) : Leaks leak leak

theorem Leaks.emits {leak : Node} (h : Leaks node leak) (hemits : Emits context root node) :
    Emits context root leak := by
  have hchild {node child : Node} {kind : String} (hkind : node.kind = kind) (hplain : kind ∉ ruledKinds)
      (hkept : droppedTokens kind = []) (hchild : child ∈ node.children) (hemits : Emits context root node) :
      Emits context root child := by
    refine .part hemits ?_
    rwa [emittedParts_of_isAssembled (isAssembled_of_kind hkind hplain) (hkind ▸ hkept)]
  cases h with
  | thisParameter hparameters hfirst hparameter hpattern _ =>
    exact hchild hparameter (by decide) (by decide) (List.mem_of_find?_eq_some hpattern)
      (hchild hparameters (by decide) (by decide) (mem_children_of_named (List.mem_of_head? hfirst)) hemits)
  | importAlias _ => exact hemits
  | namespaceExport _ _ _ => exact hemits

end Emitted

/-! ## §4. Modules -/

section Lower

variable {parser other : Parser} {dialect dialect' : Dialect} {options : Options} {source bare : String}
  {lowered : LoweredModule}

theorem lower_eq_ok_iff :
    lower parser dialect options source = .ok lowered ↔
      NulFree source ∧ (parser dialect source).hasFault = false ∧ isShallow (parser dialect source) = true ∧
        lowerTree options source (parser dialect source) = .ok lowered := by
  unfold lower
  rw [String.contains_char_eq]
  dsimp only
  by_cases hnul : '\x00' ∈ source.toList
  · rw [if_pos (decide_eq_true hnul)]
    exact ⟨fun h => (nomatch h), fun h => absurd hnul h.1⟩
  · rw [if_neg (by rw [decide_eq_false hnul]; exact Bool.false_ne_true)]
    cases hfault : (parser dialect source).hasFault with
    | true => exact ⟨fun h => (nomatch h), fun h => (nomatch h.2.1)⟩
    | false =>
      rw [if_neg Bool.false_ne_true]
      cases hshallow : isShallow (parser dialect source) with
      | false => exact ⟨fun h => (nomatch h), fun h => (nomatch h.2.2.1)⟩
      | true => exact ⟨fun h => ⟨hnul, rfl, rfl, h⟩, fun h => h.2.2.2⟩

/-- The module of a source does not depend on its type syntax. -/
theorem Rewrites.lower_eq_ok (h : Rewrites ⟨source, options⟩ (parser dialect source) bare)
    (hplaced : ∀ node ∈ (parser dialect source).preorder, node.InPlace source)
    (hopen : ∀ node ∈ (parser dialect source).preorder, OpensPlain ⟨source, options⟩ node)
    (hparse : other dialect' bare = parser dialect source)
    (hok : lower parser dialect options source = .ok lowered) :
    lower other dialect' options bare = .ok lowered := by
  obtain ⟨-, hfault, hshallow, htree⟩ := lower_eq_ok_iff.mp hok
  refine lower_eq_ok_iff.mpr ⟨h.nulFree, by rw [hparse, hfault], by rw [hparse, hshallow], ?_⟩
  have hmodule : Agree (emitModule ⟨source, options⟩ (parser dialect source))
      (emitModule ⟨bare, options⟩ (parser dialect source)) := by
    have hroot : Agree (emit ⟨source, options⟩ _) (emit ⟨bare, options⟩ _) := h.same hplaced hopen .self
    exact hroot.bind fun body => .refl _
  have hsame : (lowerTree options source (parser dialect source)).mapError Failure.unlined
      = (lowerTree options bare (parser dialect source)).mapError Failure.unlined :=
    Result.mapError_bind_congr (hmodule {}) fun _ => rfl
  rw [hparse, ← Result.mapError_eq_ok_iff (f := Failure.unlined), ← hsame, htree]
  rfl

/-- **Type syntax is erased, and nothing else is left of it than what there is no rule for.**  A module does
not depend on what the type syntax of its source is.  Of the nodes that are emitted none is a construct
that has to be rejected, types have no code, and assertions have the code of their operands.  But a
parameter `this`, an alias for a part of a namespace and the name of a module for scripts are copied. -/
theorem lower_erased (hfactory : NulFree options.factory) (hfragment : NulFree options.fragment)
    (hplaced : ∀ node ∈ (parser dialect source).preorder, node.InPlace source)
    (hopen : ∀ node ∈ (parser dialect source).preorder, OpensPlain ⟨source, options⟩ node)
    (hok : lower parser dialect options source = .ok lowered) :
    (∀ (other : Parser) (dialect' : Dialect) (bare : String), other dialect' bare = parser dialect source →
      Rewrites ⟨source, options⟩ (parser dialect source) bare → lower other dialect' options bare = .ok lowered) ∧
    ∀ node, Emits ⟨source, options⟩ (parser dialect source) node →
      isRejected node = false ∧
      (isTypeConstruct node = true → ∀ text, StandsIn lowered ⟨source, options⟩ node text → text = []) ∧
      (∀ operand, unwrapped? node = some operand →
        ∀ text, StandsIn lowered ⟨source, options⟩ node text ↔ StandsIn lowered ⟨source, options⟩ operand text) ∧
      ∀ leak, Leaks node leak → (∀ inner ∈ leak.preorder, IsPlain ⟨source, options⟩ inner) →
        StandsIn lowered ⟨source, options⟩ leak (leak.text source).toList := by
  refine ⟨fun other dialect' bare hparse h => h.lower_eq_ok hplaced hopen hparse hok, fun node hemits => ?_⟩
  refine ⟨?_, fun hconstruct text hstands => ?_, fun operand hoperand text => ?_, fun leak hleak hplain => ?_⟩
  · -- a step that rejects its node does not end well
    rw [Bool.eq_false_iff]
    intro hrejected
    obtain ⟨cause, hemit⟩ := exists_cause_of_isRejected ⟨source, options⟩ hrejected
    obtain ⟨_, _, _, _, _, _, _, hrun, -⟩ := exists_standsIn hfactory hfragment hok hemits
    rw [hemit] at hrun
    cases hrun
  · obtain ⟨before, code, after, specifiers, -, -, hrun, rfl, -⟩ := hstands
    rw [emit_eq] at hrun
    obtain ⟨-, rfl⟩ := yields_nil_of_leavesNothing (leavesNothing_of_isTypeConstruct hconstruct) _ before code
      after (Nat.zero_le _) hrun
    rfl
  · unfold StandsIn
    rw [emit_of_unwrapped hoperand]
  · have hemits := hleak.emits hemits
    have hinside := Node.preorder_subset hemits.mem_preorder
    have hemit := emit_of_isPlain (fun inner hinner => hplaced inner (hinside hinner)) hplain
    obtain ⟨text, hstands⟩ := exists_standsIn hfactory hfragment hok hemits
    have htext : text = (leak.text source).toList := by
      obtain ⟨before, code, after, specifiers, -, -, hrun, rfl, -⟩ := hstands
      rw [hemit] at hrun
      cases hrun
      exact Code.filled_ofText specifiers _
    rwa [← htext]

end Lower

/-- The tree of `let x:T=y!;`. -/
def annotatedProgram : Node :=
  ⟨"program", true, false, 0, 11, none,
    [⟨"lexical_declaration", true, false, 0, 11, none,
      [⟨"let", false, false, 0, 3, some "kind", []⟩,
        ⟨"variable_declarator", true, false, 4, 10, none,
          [⟨"identifier", true, false, 4, 5, some "name", []⟩,
            ⟨"type_annotation", true, false, 5, 7, some "type",
              [tokenNode ":" 5 6, ⟨"type_identifier", true, false, 6, 7, none, []⟩]⟩,
            tokenNode "=" 7 8,
            ⟨"non_null_expression", true, false, 8, 10, some "value",
              [⟨"identifier", true, false, 8, 9, none, []⟩, tokenNode "!" 9 10]⟩]⟩,
        tokenNode ";" 10 11]⟩]⟩

theorem lower_annotatedProgram :
    lower (fun _ _ => annotatedProgram) .typescript {} "let x:T=y!;" = .ok ⟨"let x=y;", [], [], false⟩ := by
  unfold lower
  rw [String.contains_char_eq, if_neg (by decide)]
  decide +kernel

/-- Blanks in place of the type and the mark are other type syntax. -/
theorem rewrites_annotatedProgram : Rewrites ⟨"let x:T=y!;", {}⟩ annotatedProgram "let x  =y ;" := by
  have hslices : ∀ start ∈ "let x:T=y!;".toList.inits.map String.utf8Len,
      ∀ stop ∈ "let x:T=y!;".toList.inits.map String.utf8Len,
        Clear ⟨"let x:T=y!;", {}⟩ annotatedProgram start stop →
          Node.slice "let x:T=y!;" start stop = Node.slice "let x  =y ;" start stop := by
    decide +kernel
  have hread : ∀ node ∈ annotatedProgram.preorder, readStretches node = [] := by decide +kernel
  have hkinds : ∀ node ∈ annotatedProgram.preorder, node.kind ≠ "method_definition" := by decide
  refine ⟨by decide, by decide +kernel, fun start stop hstart hstop => ?_, fun node hemits => ?_,
    fun node hemits h => ?_⟩
  · exact hslices start (Node.isBoundary_iff.mp hstart) stop (Node.isBoundary_iff.mp hstop)
  · rw [hread node hemits.mem_preorder]
    exact fun _ hstretch => absurd hstretch List.not_mem_nil
  · exact absurd h (hkinds node hemits.mem_preorder)

/-- The declaration is lowered as if blanks stood in place of the type and the mark. -/
theorem lower_erased_annotated :
    Rewrites ⟨"let x:T=y!;", {}⟩ annotatedProgram "let x  =y ;" ∧
      lower (fun _ _ => annotatedProgram) .typescript {} "let x  =y ;" = .ok ⟨"let x=y;", [], [], false⟩ :=
  ⟨rewrites_annotatedProgram,
    (@lower_erased (fun _ _ => annotatedProgram) .typescript {} _ _ (by decide) (by decide) (by decide +kernel)
      (by decide +kernel) lower_annotatedProgram).1 _ .typescript _ rfl rewrites_annotatedProgram⟩

/-- The parameters of `function f(this:T){}`. -/
def thisParameters : Node :=
  ⟨"formal_parameters", true, false, 10, 18, some "parameters",
    [tokenNode "(" 10 11,
      ⟨"required_parameter", true, false, 11, 17, none,
        [⟨"this", true, false, 11, 15, some "pattern", []⟩,
          ⟨"type_annotation", true, false, 15, 17, some "type",
            [tokenNode ":" 15 16, ⟨"type_identifier", true, false, 16, 17, none, []⟩]⟩]⟩,
      tokenNode ")" 17 18]⟩

/-- The tree of `function f(this:T){}`. -/
def thisProgram : Node :=
  ⟨"program", true, false, 0, 20, none,
    [⟨"function_declaration", true, false, 0, 20, none,
      [tokenNode "function" 0 8, ⟨"identifier", true, false, 9, 10, some "name", []⟩, thisParameters,
        ⟨"statement_block", true, false, 18, 20, some "body", [tokenNode "\x7b" 18 19, tokenNode "\x7d" 19 20]⟩]⟩]⟩

/-- **A parameter that is left.**  The type of the parameter `this` is erased and the parameter is not, so
that the function has a reserved word for a parameter. -/
theorem lower_this_unerased :
    (∃ node leak, Emits ⟨"function f(this:T)\x7b\x7d", {}⟩ thisProgram node ∧ Leaks node leak) ∧
      lower (fun _ _ => thisProgram) .typescript {} "function f(this:T)\x7b\x7d"
        = .ok ⟨"function f(this)\x7b\x7d", [], [], false⟩ := by
  refine ⟨⟨thisParameters, ⟨"this", true, false, 11, 15, some "pattern", []⟩, ?_, ?_⟩, ?_⟩
  · exact .part (.part .self (List.mem_of_getElem? (i := 0) rfl)) (List.mem_of_getElem? (i := 2) rfl)
  · exact .thisParameter rfl rfl rfl rfl rfl
  · unfold lower
    rw [String.contains_char_eq, if_neg (by decide)]
    decide +kernel

end LivePreview.Lowering
