/-
  LivePreview.Proofs.Lowering.Constructor
  ───────────────────────────────────────
  **Where a constructor assigns the properties among its parameters.**

  Apart from the assignments a constructor is emitted like any other node.  They stand all
  in one place of the body, each property once and in the order of the parameters
  (`AssignsBehind`): behind the call of the parent's constructor if that is the first
  construct in the body, and else behind the opening brace.  A comment is a construct too:

      source   { super(); f() }              { /* c */ super(); f() }
      code     { super(); this.x = x; f() }  { this.x = x; /* c */ super(); f() }

  So a call of the parent's constructor stands in front of the assignments exactly if no
  construct at all stands in front of it (`emit_constructor`).  Between the call and the
  first assignment stands what ends the statement in the source, and a blank
  (`emit_constructor_behind_super`); a statement that ends with its call is not kept apart
  from the assignment, though a line break follows it in the source.
-/
import LivePreview.Lowering.Module
import LivePreview.Proofs.Lowering.Assembled
import LivePreview.Proofs.Lowering.Trace.Declaration

namespace LivePreview.Lowering

open LivePreview.Syntax (Node)

variable {context : Context} {method body : Node}

/-! ## §1. Properties -/

/-- The parameter is a property of the class: it carries a modifier, and its pattern is a name. -/
def isProperty (parameter : Node) : Bool :=
  (parameter.kind == "required_parameter" || parameter.kind == "optional_parameter")
    && parameter.children.any isPropertyModifier
    && (parameter.childByField? "pattern").any (·.kind == "identifier")

/-- The parameters of a method that are properties, in order. -/
def properties (method : Node) : List Node :=
  ((method.childByField? "parameters").map fun parameters =>
    parameters.namedChildren.filter isProperty).getD []

/-- The name of a parameter. -/
def parameterName (context : Context) (parameter : Node) : String :=
  ((parameter.childByField? "pattern").map context.text).getD ""

/-- The assignment of a property. -/
def assignment (context : Context) (parameter : Node) : Code :=
  Code.ofText (" this." ++ parameterName context parameter ++ " = " ++ parameterName context parameter ++ ";")

theorem parameterProperty?_eq_ite (parameter : Node) :
    parameterProperty? context parameter
      = if isProperty parameter then some (parameterName context parameter) else none := by
  unfold parameterProperty? isProperty parameterName
  cases parameter.childByField? "pattern" with
  | none => simp
  | some pattern => simp [Option.any]

/-- The assigned names are those of the properties, each once. -/
theorem parameterProperties_eq_map (method : Node) :
    parameterProperties context method = (properties method).map (parameterName context) := by
  unfold parameterProperties properties
  cases method.childByField? "parameters" with
  | none => rfl
  | some parameters =>
    simp only [Option.map_some, Option.getD_some]
    rw [← List.filterMap_eq_map, List.filterMap_filter]
    exact List.filterMap_congr fun parameter _ => parameterProperty?_eq_ite parameter

theorem ofText_assignments (method : Node) :
    Code.ofText (assignments (parameterProperties context method))
      = (properties method).flatMap (assignment context) := by
  rw [parameterProperties_eq_map]
  induction properties method with
  | nil => rfl
  | cons parameter parameters ih =>
    rw [List.map_cons, ofText_assignments_cons, ih, List.flatMap_cons]
    rfl

/-! ## §2. Constructors -/

/-- The method is a constructor with a body in braces. -/
structure IsConstructor (context : Context) (method body : Node) : Prop where
  kind : method.kind = "method_definition"
  name : ∃ name, method.childByField? "name" = some name ∧ context.text name = "constructor"
  found : method.childByField? "body" = some body
  block : body.kind = "statement_block"
  /-- The body starts with a brace, and none of its other children is one. -/
  opening : ∃ brace statements, body.children = brace :: statements ∧ brace.isToken "\x7b" = true ∧
    brace.children = [] ∧ context.text brace = "\x7b" ∧ ∀ node ∈ statements, node.isToken "\x7b" = false

/-- In the code of the method the assignments of its properties stand behind a child of the body, and
nothing else has been added to what the nodes of the method emit in their places. -/
structure AssignsBehind (context : Context) (method body : Node) (front : List Node) (anchor : Node)
    (back : List Node) : Prop where
  children : body.children = front ++ anchor :: back
  emits : ∃ before behind, method.children = before ++ body :: behind ∧
    emit context method = (do
      let head ← emitStretch context method.start body.start before
      let opening ← emitStretch context body.start anchor.stop (front ++ [anchor])
      let rest ← emitStretch context anchor.stop body.stop back
      let tail ← emitStretch context body.stop method.stop behind
      return head ++ (opening ++ (properties method).flatMap (assignment context) ++ rest) ++ tail) ∧
    emitStretch context method.start method.stop method.children = (do
      let head ← emitStretch context method.start body.start before
      let opening ← emitStretch context body.start anchor.stop (front ++ [anchor])
      let rest ← emitStretch context anchor.stop body.stop back
      let tail ← emitStretch context body.stop method.stop behind
      return head ++ (opening ++ rest) ++ tail)

theorem methodDefinition_of_assigns {children : List Draft} (h : assignsProperties context method = true) :
    methodDefinition context method children
      = Draft.assemble context method (Draft.replaceFirst (Draft.hasField "body")
          (constructorBody context (assignments (parameterProperties context method))) children) := by
  unfold methodDefinition
  exact if_pos h

namespace IsConstructor

/-- The rule for the body of a constructor stands in the place of the body. -/
theorem emit_of_body (h : IsConstructor context method body) (hproperties : properties method ≠ []) :
    ∃ before behind, method.children = before ++ body :: behind ∧ emit context method = (do
      let head ← emitStretch context method.start body.start before
      let code ← constructorBody context (assignments (parameterProperties context method))
        (draft context body)
      let tail ← emitStretch context body.stop method.stop behind
      return head ++ code ++ tail) := by
  obtain ⟨name, hname, htext⟩ := h.name
  obtain ⟨hfield, before, behind, hmethod, hbefore⟩ := List.find?_eq_some_iff_append.mp h.found
  refine ⟨before, behind, hmethod, ?_⟩
  have hassigns : assignsProperties context method = true := by
    unfold assignsProperties
    rw [hname, h.found, parameterProperties_eq_map]
    simp [htext, hproperties]
  have hrule : emit context method
      = methodDefinition context method (method.children.map (draft context)) := by
    rw [emit_eq, emission_of_construct h.kind (by decide), constructEmission, h.kind]
    rfl
  -- the body is the first of the children in its role
  have hfirst : ∀ child ∈ before.map (draft context), Draft.hasField "body" child = false :=
    forall_map_draft (hasField_draft "body") fun node hnode => (Bool.not_eq_true' _).mp (hbefore node hnode)
  have hbody : Draft.hasField "body" (draft context body) = true := (hasField_draft "body" body).trans hfield
  rw [hrule, methodDefinition_of_assigns hassigns, hmethod, List.map_append, List.map_cons,
    replaceFirst_append hfirst hbody, Draft.assemble, if_neg (by simp), assembleFrom_append]
  simp only [Draft.withEmission, node_draft]
  rfl

/-- The assignments stand where the body of the constructor has them. -/
theorem assignsBehind (h : IsConstructor context method body) (hproperties : properties method ≠ [])
    {front back : List Node} {anchor : Node} (hchildren : body.children = front ++ anchor :: back)
    (hbody : ∀ added, constructorBody context added (draft context body) = (do
      let opening ← emitStretch context body.start anchor.stop (front ++ [anchor])
      let rest ← emitStretch context anchor.stop body.stop back
      return opening ++ Code.ofText added ++ rest)) :
    AssignsBehind context method body front anchor back := by
  obtain ⟨before, behind, hmethod, hemit⟩ := h.emit_of_body hproperties
  refine ⟨hchildren, before, behind, hmethod, ?_, ?_⟩
  · rw [hemit, hbody, ofText_assignments]
    simp only [bind_assoc, pure_bind]
  · have hne : body.children ≠ [] := by
      rw [hchildren]
      exact List.append_ne_nil_of_right_ne_nil _ (List.cons_ne_nil _ _)
    have hkept : droppedTokens body.kind = [] := by
      rw [h.block]
      rfl
    rw [hmethod, emitStretch_append, emit_of_isAssembled (isAssembled_of_kind h.block (by decide)) hkept hne,
      hchildren, emitStretch_append, emitStretch_concat]
    simp only [bind_assoc, pure_bind, List.append_assoc]

/-- The body starts with a call of the parent's constructor, and the assignments stand behind it. -/
theorem assignsBehind_superCall (h : IsConstructor context method body) (hproperties : properties method ≠ [])
    {call : Node} (hfirst : body.namedChildren.head? = some call) (hcall : isSuperCall call = true) :
    ∃ front back, AssignsBehind context method body front call back ∧
      (∀ node ∈ front, node.isNamed = false) := by
  have hfind : body.children.find? (·.isNamed) = some call := by
    rw [← hfirst, Node.namedChildren, List.head?_filter]
  obtain ⟨hnamed, front, back, hchildren, hfront⟩ := List.find?_eq_some_iff_append.mp hfind
  have hfront : ∀ node ∈ front, node.isNamed = false := fun node hnode =>
    (Bool.not_eq_true' _).mp (hfront node hnode)
  refine ⟨front, back, h.assignsBehind hproperties hchildren fun added => ?_, hfront⟩
  unfold constructorBody
  rw [node_draft, hfirst, Option.any_some, if_pos hcall, children_draft, hchildren, List.map_append,
    List.map_cons, replaceFirst_append (forall_map_draft isNamed_draft hfront)
      ((isNamed_draft call).trans hnamed)]
  exact assemble_behind body front call back (Code.ofText added)

/-- Otherwise the assignments stand behind the opening brace. -/
theorem assignsBehind_brace (h : IsConstructor context method body) (hproperties : properties method ≠ [])
    (hfirst : body.namedChildren.head?.any isSuperCall = false) :
    ∃ brace back, AssignsBehind context method body [] brace back ∧ brace.isToken "\x7b" = true := by
  obtain ⟨brace, statements, hchildren, htoken, hleaf, htext, hstatements⟩ := h.opening
  refine ⟨brace, statements, h.assignsBehind hproperties hchildren fun added => ?_, htoken⟩
  have htest (node : Node) : Draft.isTokenAmong ["\x7b"] (draft context node) = node.isToken "\x7b" := by
    rw [isTokenAmong_draft, List.contains_cons, List.contains_nil, Bool.or_false]
    rfl
  -- the brace itself is copied, so that putting it back leaves it in its place
  have hcopied : (return Code.ofText ("\x7b" ++ added) : Emit Code)
      = do return (← emit context brace) ++ Code.ofText added := by
    have hkind : brace.kind = "\x7b" := eq_of_beq (Bool.and_eq_true_iff.mp htoken).2
    rw [emit_leaf (isAssembled_of_kind hkind (by decide)) hleaf, htext, pure_bind, ← Code.ofText_append]
  unfold constructorBody
  rw [node_draft, if_neg (by rw [hfirst]; exact Bool.false_ne_true), children_draft, hchildren, List.map_cons,
    replaceEach_cons ((htest brace).trans htoken) (forall_map_draft htest hstatements), hcopied]
  exact assemble_behind body [] brace statements (Code.ofText added)

end IsConstructor

/-! ## §3. Trees of constructors -/

/-- The tree of the call `super()`. -/
def superCall (start : Nat) : Node :=
  ⟨"call_expression", true, false, start, start + 7, none,
    [⟨"super", true, false, start, start + 5, some "function", []⟩,
      ⟨"arguments", true, false, start + 5, start + 7, some "arguments",
        [⟨"(", false, false, start + 5, start + 6, none, []⟩,
          ⟨")", false, false, start + 6, start + 7, none, []⟩]⟩]⟩

/-- The tree of a statement that starts with the call. -/
def superStatement (start : Nat) (ending : List Node) (stop : Nat) : Node :=
  ⟨"expression_statement", true, false, start, stop, none, superCall start :: ending⟩

/-- The tree of a block from offset 40. -/
def constructorBlock (statements : List Node) (stop : Nat) : Node :=
  ⟨"statement_block", true, false, 40, stop, some "body",
    ⟨"\x7b", false, false, 40, 41, none, []⟩
      :: (statements ++ [⟨"\x7d", false, false, stop - 1, stop, none, []⟩])⟩

/-- The tree of `constructor(private x)` from offset 18, with a block behind it. -/
def propertyConstructor (block : Node) : Node :=
  ⟨"method_definition", true, false, 18, block.stop, none,
    [⟨"property_identifier", true, false, 18, 29, some "name", []⟩,
      ⟨"formal_parameters", true, false, 29, 40, some "parameters",
        [⟨"(", false, false, 29, 30, none, []⟩,
          ⟨"required_parameter", true, false, 30, 39, none,
            [⟨"accessibility_modifier", true, false, 30, 37, none,
              [⟨"private", false, false, 30, 37, none, []⟩]⟩,
              ⟨"identifier", true, false, 38, 39, some "pattern", []⟩]⟩,
          ⟨")", false, false, 39, 40, none, []⟩]⟩,
      block]⟩

/-- The tree of a class `A` that extends `B` and has a constructor. -/
def propertyClass (method : Node) : Node :=
  ⟨"program", true, false, 0, method.stop + 1, none,
    [⟨"class_declaration", true, false, 0, method.stop + 1, none,
      [⟨"class", false, false, 0, 5, none, []⟩,
        ⟨"type_identifier", true, false, 6, 7, some "name", []⟩,
        ⟨"class_heritage", true, false, 8, 17, none,
          [⟨"extends_clause", true, false, 8, 17, none,
            [⟨"extends", false, false, 8, 15, none, []⟩,
              ⟨"identifier", true, false, 16, 17, some "value", []⟩]⟩]⟩,
        ⟨"class_body", true, false, 17, method.stop + 1, some "body",
          [⟨"\x7b", false, false, 17, 18, none, []⟩, method,
            ⟨"\x7d", false, false, method.stop, method.stop + 1, none, []⟩]⟩]⟩]⟩

/-- The tree of the block `{super();}`. -/
def endedBlock : Node :=
  constructorBlock [superStatement 41 [⟨";", false, false, 48, 49, none, []⟩] 49] 50

theorem isConstructor_ended :
    IsConstructor ⟨"class A extends B\x7bconstructor(private x)\x7bsuper();\x7d\x7d", {}⟩
      (propertyConstructor endedBlock) endedBlock where
  kind := rfl
  name := ⟨_, rfl, rfl⟩
  found := rfl
  block := rfl
  opening := ⟨_, _, rfl, rfl, rfl, rfl, by decide⟩

/-! ## §4. Where the assignments stand -/

/-- A construct is the first one exactly if it does not stand behind the first one. -/
theorem length_le_iff_of_first {early front late back : List Node} {node first : Node}
    (heq : early ++ node :: late = front ++ first :: back) (hnamed : first.isNamed = true)
    (hfront : ∀ node ∈ front, node.isNamed = false) :
    early.length ≤ front.length ↔ ∀ node ∈ early, node.isNamed = false := by
  have hearly : early <+: front ++ first :: back := ⟨node :: late, heq⟩
  constructor
  · intro hle
    have hfits := List.prefix_of_prefix_length_le hearly (List.prefix_append _ _) hle
    exact fun node hnode => hfront node (hfits.subset hnode)
  · intro hunnamed
    by_contra hlt
    -- a longer list in front would hold the first construct
    have hfirst : front ++ [first] <+: front ++ first :: back := ⟨back, by simp⟩
    have hfits := List.prefix_of_prefix_length_le hfirst hearly (by simp; omega)
    have hmem : first ∈ early := hfits.subset (List.mem_append_right _ List.mem_cons_self)
    exact Bool.false_ne_true ((hunnamed first hmem).symm.trans hnamed)

/-- **A call of the parent's constructor stands in front of the assignments exactly if no construct, not
even a comment, stands in front of it in the body.**  In a body that does not start with such a call
they stand behind the opening brace. -/
theorem emit_constructor (h : IsConstructor context method body) (hproperties : properties method ≠ []) :
    ∃ front anchor back, AssignsBehind context method body front anchor back ∧
      (body.namedChildren.head?.any isSuperCall = false → front = [] ∧ anchor.isToken "\x7b" = true) ∧
      ∀ early call late, body.children = early ++ call :: late → call.isNamed = true →
        isSuperCall call = true →
        (early.length ≤ front.length ↔ ∀ node ∈ early, node.isNamed = false) := by
  cases hfirst : body.namedChildren.head?.any isSuperCall with
  | true =>
    obtain ⟨anchor, hhead, hanchor⟩ := (Option.any_eq_true _ _).mp hfirst
    obtain ⟨front, back, hassigns, hfront⟩ := h.assignsBehind_superCall hproperties hhead hanchor
    refine ⟨front, anchor, back, hassigns, nofun, ?_⟩
    intro early call late hchildren _ _
    have hnamed : anchor.isNamed = true := (List.mem_filter.mp (List.mem_of_head? hhead)).2
    exact length_le_iff_of_first (hchildren.symm.trans hassigns.children) hnamed hfront
  | false =>
    obtain ⟨brace, back, hassigns, htoken⟩ := h.assignsBehind_brace hproperties hfirst
    refine ⟨[], brace, back, hassigns, fun _ => ⟨rfl, htoken⟩, ?_⟩
    intro early call late hchildren hnamed hcall
    refine ⟨fun hle => ?_, fun hunnamed => ?_⟩
    · rw [List.length_eq_zero_iff.mp (Nat.le_zero.mp hle)]
      exact fun _ hnode => absurd hnode List.not_mem_nil
    · -- with no construct in front of it the call would be the first one
      have hhead : body.namedChildren.head? = some call := by
        rw [Node.namedChildren, List.head?_filter]
        refine List.find?_eq_some_iff_append.mpr ⟨hnamed, early, late, hchildren, fun node hnode => ?_⟩
        rw [hunnamed node hnode]
        rfl
      rw [hhead, Option.any_some, hcall] at hfirst
      exact absurd hfirst Bool.true_eq_false.mp

theorem emit_constructor_ended :
    let context : Context := ⟨"class A extends B\x7bconstructor(private x)\x7bsuper();\x7d\x7d", {}⟩
    ∃ front anchor back, AssignsBehind context (propertyConstructor endedBlock) endedBlock front anchor back ∧
      (endedBlock.namedChildren.head?.any isSuperCall = false → front = [] ∧ anchor.isToken "\x7b" = true) ∧
      ∀ early call late, endedBlock.children = early ++ call :: late → call.isNamed = true →
        isSuperCall call = true →
        (early.length ≤ front.length ↔ ∀ node ∈ early, node.isNamed = false) :=
  emit_constructor isConstructor_ended (List.cons_ne_nil _ _)

/-- Behind a comment the call of the parent's constructor comes after the assignment. -/
theorem lower_commented_late :
    let source := "class A extends B\x7bconstructor(private x)\x7b/**/super();\x7d\x7d"
    let comment : Node := ⟨"comment", true, false, 41, 45, none, []⟩
    let statement := superStatement 45 [⟨";", false, false, 52, 53, none, []⟩] 53
    isSuperCall statement = true ∧ statement.text source = "super();" ∧
      lower (fun _ _ => propertyClass (propertyConstructor (constructorBlock [comment, statement] 54)))
          .typescript {} source
        = .ok ⟨"class A extends B\x7bconstructor( x)\x7b this.x = x;/**/super();\x7d\x7d", [], [], false⟩ := by
  refine ⟨rfl, rfl, ?_⟩
  unfold lower
  rw [String.contains_char_eq, if_neg (by decide)]
  decide +kernel

/-! ## §5. What keeps the assignments apart -/

/-- The text holds a semicolon or a line break. -/
def KeepsApart (text : String) : Prop :=
  ∃ c ∈ text.toList, c ∈ [';', '\n', '\r', '\u2028', '\u2029']

/-- The node is a semicolon or a comment, which may stand behind the expression in a statement. -/
structure EndsStatement (context : Context) (node : Node) : Prop where
  leaf : node.children = []
  kind : node.kind ∈ [";", "comment", "html_comment"]
  text : node.kind = ";" → context.text node = ";"
  place : node.InPlace context.source

/-- The statement consists of a call of the parent's constructor and of what ends the statement. -/
structure IsSuperStatement (context : Context) (statement call : Node) (ending : List Node) : Prop where
  calls : isSuperCall statement = true
  children : statement.children = call :: ending
  place : statement.InPlace context.source
  callPlace : call.InPlace context.source
  ends : ∀ node ∈ ending, EndsStatement context node

/-- What stands in the code between the call in a statement and the first assignment behind it. -/
def spacing (context : Context) (statement call : Node) : String :=
  Node.slice context.source call.stop statement.stop ++ " "

namespace IsSuperStatement

variable {statement call : Node} {ending : List Node}

theorem emit_statement (h : IsSuperStatement context statement call ending) :
    emit context statement = (do
      let code ← emit context call
      return Code.ofText (Node.slice context.source statement.start call.start) ++ code
        ++ Code.ofText (Node.slice context.source call.stop statement.stop)) := by
  have hkind : statement.kind = "expression_statement" := by
    have hcalls := h.calls
    unfold isSuperCall at hcalls
    exact eq_of_beq (Bool.and_eq_true_iff.mp hcalls).1
  have hrow := h.place.inRow
  rw [h.children] at hrow
  have hleaves : ∀ node ∈ ending, IsAssembled context node ∧ node.children = [] := by
    intro node hnode
    have hplain : ∀ kind ∈ [";", "comment", "html_comment"], kind ∉ ruledKinds := by decide
    have hends := h.ends node hnode
    exact ⟨isAssembled_of_kind rfl (hplain node.kind hends.kind), hends.leaf⟩
  have hending := emitStretch_of_leaves h.callPlace.stop_isBoundary h.place.stop_isBoundary hrow.2.2
    (fun node hnode => (h.ends node hnode).place) hleaves
  rw [emit_of_isAssembled (isAssembled_of_kind hkind (by decide)) (by rw [hkind]; rfl)
    (by rw [h.children]; exact List.cons_ne_nil _ _), h.children, ← List.nil_append (call :: ending),
    emitStretch_append, hending]
  rfl

/-- A semicolon keeps the assignments apart from the call. -/
theorem keepsApart_of_semicolon (h : IsSuperStatement context statement call ending)
    (hsemicolon : ∃ node ∈ ending, node.kind = ";") :
    KeepsApart (Node.slice context.source call.stop statement.stop) := by
  obtain ⟨node, hnode, hkind⟩ := hsemicolon
  have hends := h.ends node hnode
  have hrow := h.place.inRow
  rw [h.children] at hrow
  obtain ⟨hgap, hle, hrest⟩ := hrow.2.2.bounds hnode
  have hstart := hends.place.start_isBoundary
  have hstop := hends.place.stop_isBoundary
  have htext : Node.slice context.source node.start node.stop = ";" := hends.text hkind
  rw [← Node.slice_append h.callPlace.stop_isBoundary hstop h.place.stop_isBoundary
      (Nat.le_trans hgap hle) hrest,
    ← Node.slice_append h.callPlace.stop_isBoundary hstart hstop hgap hle, htext]
  refine ⟨';', ?_, List.mem_cons_self⟩
  rw [String.toList_append, String.toList_append]
  exact List.mem_append_left _ (List.mem_append_right _ List.mem_cons_self)

end IsSuperStatement

theorem not_keepsApart_blank : ¬ KeepsApart " " := by
  rintro ⟨c, hc, hapart⟩
  rw [List.mem_singleton.mp hc] at hapart
  exact absurd hapart (by decide)

theorem keepsApart_append_blank {text : String} : KeepsApart (text ++ " ") ↔ KeepsApart text := by
  unfold KeepsApart
  constructor
  · rintro ⟨c, hc, hapart⟩
    rw [String.toList_append] at hc
    rcases List.mem_append.mp hc with hc | hc
    · exact ⟨c, hc, hapart⟩
    · exact absurd ⟨c, hc, hapart⟩ not_keepsApart_blank
  · rintro ⟨c, hc, hapart⟩
    rw [String.toList_append]
    exact ⟨c, List.mem_append_left _ hc, hapart⟩

/-- **Between the call of the parent's constructor and the first assignment behind it stands what ends
the statement in the source, and a blank.**  So they are two statements exactly if the end of the
statement keeps them apart: a semicolon does, and if the statement ends with its call nothing does. -/
theorem emit_constructor_behind_super {statement call parameter : Node} {ending parameters : List Node}
    (h : IsConstructor context method body) (hproperties : properties method = parameter :: parameters)
    (hfirst : body.namedChildren.head? = some statement)
    (hstatement : IsSuperStatement context statement call ending) :
    (∃ before front back behind, method.children = before ++ body :: behind ∧
      body.children = front ++ statement :: back ∧
      emit context method = (do
        let head ← emitStretch context method.start body.start before
        let opening ← emitStretch context body.start statement.start front
        let code ← emit context call
        let rest ← emitStretch context statement.stop body.stop back
        let tail ← emitStretch context body.stop method.stop behind
        return head ++ (opening ++ Code.ofText (Node.slice context.source statement.start call.start) ++ code
          ++ Code.ofText (spacing context statement call ++ "this." ++ parameterName context parameter
              ++ " = " ++ parameterName context parameter ++ ";")
          ++ parameters.flatMap (assignment context) ++ rest) ++ tail)) ∧
    (KeepsApart (spacing context statement call)
      ↔ KeepsApart (Node.slice context.source call.stop statement.stop)) ∧
    ((∃ node ∈ ending, node.kind = ";") → KeepsApart (spacing context statement call)) ∧
    (ending = [] → call.stop = statement.stop → spacing context statement call = " ") := by
  refine ⟨?_, keepsApart_append_blank, fun hsemicolon =>
    keepsApart_append_blank.mpr (hstatement.keepsApart_of_semicolon hsemicolon), fun _ hstop => ?_⟩
  · obtain ⟨front, back, ⟨hchildren, before, behind, hmethod, hemit, -⟩, -⟩ :=
      h.assignsBehind_superCall (by rw [hproperties]; exact List.cons_ne_nil _ _) hfirst hstatement.calls
    refine ⟨before, front, back, behind, hmethod, hchildren, ?_⟩
    rw [hemit, hproperties, emitStretch_concat, hstatement.emit_statement, List.flatMap_cons]
    have hthis : Code.ofText " this." = Code.ofText " " ++ Code.ofText "this." := rfl
    unfold spacing
    simp only [assignment, Code.ofText_append, hthis, bind_assoc, pure_bind, List.append_assoc]
  · unfold spacing
    rw [Node.slice_of_le (Nat.le_of_eq hstop.symm)]
    rfl

theorem isSuperStatement_ended :
    IsSuperStatement ⟨"class A extends B\x7bconstructor(private x)\x7bsuper();\x7d\x7d", {}⟩
      (superStatement 41 [⟨";", false, false, 48, 49, none, []⟩] 49)
      (superCall 41) [⟨";", false, false, 48, 49, none, []⟩] where
  calls := rfl
  children := rfl
  place := by decide +kernel
  callPlace := by decide +kernel
  ends := List.forall_mem_singleton.mpr ⟨rfl, by decide, fun _ => rfl, by decide +kernel⟩

theorem emit_constructor_behind_super_ended :
    let context : Context := ⟨"class A extends B\x7bconstructor(private x)\x7bsuper();\x7d\x7d", {}⟩
    let statement := superStatement 41 [⟨";", false, false, 48, 49, none, []⟩] 49
    let method := propertyConstructor endedBlock
    KeepsApart (spacing context statement (superCall 41)) ∧
    ∃ before front back behind, method.children = before ++ endedBlock :: behind ∧
      endedBlock.children = front ++ statement :: back ∧
      emit context method = (do
        let head ← emitStretch context 18 40 before
        let opening ← emitStretch context 40 41 front
        let code ← emit context (superCall 41)
        let rest ← emitStretch context 49 50 back
        let tail ← emitStretch context 50 50 behind
        return head ++ (opening ++ Code.ofText (Node.slice context.source 41 41) ++ code
          ++ Code.ofText (spacing context statement (superCall 41) ++ "this." ++ "x" ++ " = " ++ "x" ++ ";")
          ++ [] ++ rest) ++ tail) := by
  intro context statement method
  obtain ⟨hemit, -, hsemicolon, -⟩ := emit_constructor_behind_super isConstructor_ended rfl rfl
    isSuperStatement_ended
  exact ⟨hsemicolon ⟨_, List.mem_cons_self, rfl⟩, hemit⟩

/-- Without the semicolon nothing but a blank stands between the call and the assignment. -/
theorem lower_unended_glued :
    let source := "class A extends B\x7bconstructor(private x)\x7bsuper()\x7d\x7d"
    let statement := superStatement 41 [] 48
    spacing ⟨source, {}⟩ statement (superCall 41) = " " ∧ ¬ KeepsApart " " ∧
      lower (fun _ _ => propertyClass (propertyConstructor (constructorBlock [statement] 49)))
          .typescript {} source
        = .ok ⟨"class A extends B\x7bconstructor( x)\x7bsuper() this.x = x;\x7d\x7d", [], [], false⟩ := by
  refine ⟨rfl, not_keepsApart_blank, ?_⟩
  unfold lower
  rw [String.contains_char_eq, if_neg (by decide)]
  rfl

end LivePreview.Lowering
