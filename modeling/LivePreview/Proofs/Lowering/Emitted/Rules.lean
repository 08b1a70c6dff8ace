/-
  LivePreview.Proofs.Lowering.Emitted.Rules
  ─────────────────────────────────────────
  **Steps that emit nodes one after the other.**

  A chain of nodes is emitted from one state to another, each node from the state that the
  one in front of it has left behind (`Chain`).  A step *passes* some nodes if it emits them
  in a chain and does nothing else to the state, and if their codes stand in what it yields
  (`Passes`).  The contract composes: the nodes of a sequence of steps are those of the
  steps, in order (`Passes.bind`), and what is assembled from drafts passes the nodes that
  are emitted in the places of the drafts (`passes_assemble`).

  So the rules for constructors, enumerations and elements pass the parts of their nodes and
  no other nodes.  Only that an element has been lowered is noted beside.
-/
import LivePreview.Proofs.Lowering.Emitted.Parts

namespace LivePreview.Lowering

open LivePreview.Syntax (Node)

section Steps

variable {context : Context}

/-! ## §1. Codes that stand in others -/

/-- Each of the codes stands in one of the others. -/
def StandIn (codes others : List Code) : Prop :=
  ∀ code ∈ codes, ∃ other ∈ others, code <:+: other

section StandIn

variable {codes others more : List Code} {code other : Code}

theorem StandIn.trans (h : StandIn codes others) (hothers : StandIn others more) : StandIn codes more := by
  intro code hcode
  obtain ⟨other, hother, hinfix⟩ := h code hcode
  obtain ⟨last, hlast, hinfix'⟩ := hothers other hother
  exact ⟨last, hlast, hinfix.trans hinfix'⟩

theorem standIn_of_subset (h : codes ⊆ others) : StandIn codes others :=
  fun code hcode => ⟨code, h hcode, List.infix_rfl⟩

theorem StandIn.append (h : StandIn codes more) (hothers : StandIn others more) :
    StandIn (codes ++ others) more :=
  fun code hcode => (List.mem_append.mp hcode).elim (h code) (hothers code)

theorem standIn_nil : StandIn [] others :=
  fun _ hcode => absurd hcode List.not_mem_nil

theorem standIn_singleton (h : code <:+: other) : StandIn [code] [other] := by
  intro found hfound
  rw [List.mem_singleton.mp hfound]
  exact ⟨other, List.mem_singleton_self other, h⟩

/-- Code in front of other code, behind it or around it. -/
theorem infix_around (front code back : Code) : code <:+: front ++ code ++ back :=
  ⟨front, back, rfl⟩

theorem standIn_behind (front code : Code) : StandIn [code] [front ++ code] :=
  standIn_singleton (List.suffix_append front code).isInfix

/-- Codes stand in what they are joined to. -/
theorem standIn_joinWith (separator : String) (codes : List Code) :
    StandIn codes [Code.joinWith separator codes] := by
  induction codes with
  | nil => exact standIn_nil
  | cons first codes ih =>
    cases codes with
    | nil => exact standIn_singleton List.infix_rfl
    | cons second codes =>
      have hfirst : first <:+: Code.joinWith separator (first :: second :: codes) :=
        ⟨[], Code.ofText separator ++ Code.joinWith separator (second :: codes), by
          rw [List.nil_append, ← List.append_assoc]; rfl⟩
      have hrest : StandIn [Code.joinWith separator (second :: codes)]
          [Code.joinWith separator (first :: second :: codes)] :=
        standIn_behind (first ++ Code.ofText separator) _
      exact (standIn_singleton hfirst).append (ih.trans hrest)

/-- Code around what codes are joined to. -/
theorem standIn_around (front back : Code) {separator : String} (codes : List Code) :
    StandIn codes [front ++ Code.joinWith separator codes ++ back] :=
  (standIn_joinWith separator codes).trans (standIn_singleton (infix_around _ _ _))

end StandIn

/-! ## §2. Chains -/

/-- The nodes are emitted one after the other, from one state to another. -/
inductive Chain (context : Context) : State → List Node → List Code → State → Prop where
  | nil {state : State} : Chain context state [] [] state
  | cons {before between after : State} {node : Node} {nodes : List Node} {code : Code} {codes : List Code}
    (hrun : (emit context node).run before = .ok (code, between))
    (hrest : Chain context between nodes codes after) :
    Chain context before (node :: nodes) (code :: codes) after

theorem Chain.append {before between after : State} {nodes others : List Node} {codes more : List Code}
    (h : Chain context before nodes codes between) (hothers : Chain context between others more after) :
    Chain context before (nodes ++ others) (codes ++ more) after := by
  induction h with
  | nil => exact hothers
  | cons hrun _ ih => exact .cons hrun (ih hothers)

/-! ## §3. Passages -/

section Passes

variable {α β : Type} {front : List Code} {nodes others : List Node} {yielded : α → List Code}
  {out : β → List Code} {step : Emit α} {next : α → Emit β}

/-- The step emits the nodes in a chain, and what it yields holds their codes behind the given ones. -/
def Passes (context : Context) (front : List Code) (nodes : List Node) (yielded : α → List Code)
    (step : Emit α) : Prop :=
  ∀ before a after, step.run before = .ok (a, after) →
    ∃ codes, Chain context before nodes codes after ∧ StandIn (front ++ codes) (yielded a)

/-- The step leaves the state as it is, and what it yields satisfies `P`. -/
def Still (step : Emit α) (P : α → Prop) : Prop :=
  ∀ before a after, step.run before = .ok (a, after) → after = before ∧ P a

theorem passes_pure {a : α} (h : StandIn front (yielded a)) : Passes context front [] yielded (pure a) := by
  intro before b after hrun
  cases hrun
  exact ⟨[], .nil, by rwa [List.append_nil]⟩

theorem passes_throw {failure : Failure} : Passes context front nodes yielded (throw failure : Emit α) := by
  intro before a after hrun
  cases hrun

theorem passes_reject {node : Node} {cause : Cause} :
    Passes context front nodes yielded (reject context node cause : Emit α) :=
  passes_throw

/-- A node that is emitted. -/
theorem passes_emit (node : Node) : Passes context [] [node] (fun code => [code]) (emit context node) := by
  intro before code after hrun
  exact ⟨[code], .cons hrun .nil, standIn_of_subset (List.Subset.refl _)⟩

/-- One step behind another one. -/
theorem Passes.bind (hstep : Passes context front nodes yielded step)
    (hnext : ∀ a, Passes context (yielded a) others out (next a)) :
    Passes context front (nodes ++ others) out (step >>= next) := by
  intro before b after hrun
  rw [StateT.run_bind] at hrun
  obtain ⟨⟨a, between⟩, hfirst, hrest⟩ := Result.bind_eq_ok_iff.mp hrun
  obtain ⟨codes, hchain, hin⟩ := hstep before a between hfirst
  obtain ⟨more, hchain', hin'⟩ := hnext a between b after hrest
  -- what stands in the yield of the first step stands in that of the second one
  refine ⟨codes ++ more, hchain.append hchain', ?_⟩
  rw [← List.append_assoc]
  refine StandIn.append (hin.trans fun code hcode => hin' code (List.mem_append_left _ hcode)) ?_
  exact fun code hcode => hin' code (List.mem_append_right _ hcode)

/-- What a step yields is taken together with something in front. -/
theorem Passes.behind (h : Passes context [] nodes yielded step) (front : List Code) :
    Passes context front nodes (fun a => front ++ yielded a) step := by
  intro before a after hrun
  obtain ⟨codes, hchain, hin⟩ := h before a after hrun
  refine ⟨codes, hchain, (standIn_of_subset (List.subset_append_left _ _)).append (hin.trans ?_)⟩
  exact standIn_of_subset (List.subset_append_right _ _)

/-- Something is made of what a step yields. -/
theorem Passes.map (h : Passes context [] nodes yielded step) {f : α → β}
    (hf : ∀ a, StandIn (front ++ yielded a) (out (f a))) :
    Passes context front nodes out (step >>= fun a => pure (f a)) := by
  have hbind := (h.behind front).bind fun a => (passes_pure (hf a) : Passes context (front ++ yielded a) [] out _)
  rwa [List.append_nil] at hbind

/-- A step whose code is all that is emitted. -/
theorem Passes.singleton {step : Emit Code} (h : Passes context [] nodes (fun code => [code]) step) :
    Passes context [] nodes id (step >>= fun code => pure [code]) :=
  h.map fun _ => standIn_of_subset (List.Subset.refl _)

theorem Still.bind {P : α → Prop} (hstep : Still step P)
    (hnext : ∀ a, P a → Passes context front nodes out (next a)) :
    Passes context front nodes out (step >>= next) := by
  intro before b after hrun
  rw [StateT.run_bind] at hrun
  obtain ⟨⟨a, between⟩, hfirst, hrest⟩ := Result.bind_eq_ok_iff.mp hrun
  obtain ⟨rfl, hP⟩ := hstep before a between hfirst
  exact hnext a hP between b after hrest

theorem still_demand {a? : Option α} : Still (demand a?) fun a => a? = some a := by
  intro before a after hrun
  cases a? with
  | none => cases hrun
  | some found =>
    cases hrun
    exact ⟨rfl, rfl⟩

theorem still_lift {result : Except Failure α} : Still (liftM result : Emit α) fun a => result = .ok a := by
  intro before a after hrun
  cases result with
  | error failure => cases hrun
  | ok found =>
    cases hrun
    exact ⟨rfl, rfl⟩

theorem still_decodable {result : Except Text.CharacterReference.Overlong α} :
    Still (decodable result) fun _ => True := by
  intro before a after hrun
  cases result with
  | error overlong => cases hrun
  | ok found =>
    cases hrun
    exact ⟨rfl, trivial⟩

end Passes

/-! ## §4. Drafts in places -/

/-- The draft is that of the child in the place, and passes what is emitted there. -/
structure Fills (context : Context) (draft : Draft) (place : Place) : Prop where
  node : draft.node = place.node
  emission : Passes context [] place.parts (fun code => [code]) draft.emission

section Fills

variable {drafts : List Draft} {places : List Place}

theorem fills_map_draft (context : Context) (nodes : List Node) :
    List.Forall₂ (Fills context) (nodes.map (draft context)) (nodes.map Place.ofNode) := by
  induction nodes with
  | nil => exact .nil
  | cons node nodes ih => exact .cons ⟨node_draft context node, passes_emit node⟩ ih

/-- The first child that satisfies a condition gets another step, which passes other nodes. -/
theorem fills_replaceFirst {p : Draft → Bool} {q : Node → Bool} {f : Draft → Emit Code}
    {g : Node → List Node} (h : List.Forall₂ (Fills context) drafts places)
    (hpq : ∀ draft, p draft = q draft.node)
    (hf : ∀ draft ∈ drafts, Passes context [] (g draft.node) (fun code => [code]) (f draft)) :
    List.Forall₂ (Fills context) (Draft.replaceFirst p f drafts) (Place.exchangeFirst q g places) := by
  induction h with
  | nil => exact .nil
  | @cons draft place drafts places hfirst hrest ih =>
    obtain ⟨hdraft, hdrafts⟩ := List.forall_mem_cons.mp hf
    have hsame : p draft = q place.node := (hpq draft).trans (congrArg q hfirst.node)
    unfold Draft.replaceFirst Place.exchangeFirst
    rw [hsame]
    split
    · exact .cons ⟨hfirst.node, hfirst.node ▸ hdraft⟩ hrest
    · exact .cons hfirst (ih hdrafts)

/-- All children that satisfy a condition get other steps. -/
theorem fills_replaceEach {p : Draft → Bool} {q : Node → Bool} {f : Draft → Emit Code}
    {g : Node → List Node} (h : List.Forall₂ (Fills context) drafts places)
    (hpq : ∀ draft, p draft = q draft.node)
    (hf : ∀ draft ∈ drafts, Passes context [] (g draft.node) (fun code => [code]) (f draft)) :
    List.Forall₂ (Fills context) (Draft.replaceEach p f drafts) (Place.exchangeEach q g places) := by
  induction h with
  | nil => exact .nil
  | @cons draft place drafts places hfirst hrest ih =>
    obtain ⟨hdraft, hdrafts⟩ := List.forall_mem_cons.mp hf
    have hsame : p draft = q place.node := (hpq draft).trans (congrArg q hfirst.node)
    refine .cons ?_ (ih hdrafts)
    dsimp only
    rw [hsame]
    split
    · exact ⟨hfirst.node, hfirst.node ▸ hdraft⟩
    · exact hfirst

theorem passes_assembleFrom {source : String} {stop position : Nat}
    (h : List.Forall₂ (Fills context) drafts places) :
    Passes context [] (Place.partsOf places) (fun code => [code])
      (Draft.assembleFrom source stop position drafts) := by
  induction h generalizing position with
  | nil => exact passes_pure standIn_nil
  | cons hfirst _ ih =>
    unfold Draft.assembleFrom
    refine hfirst.emission.bind fun code => ih.map fun rest => ?_
    refine (standIn_singleton ?_).append (standIn_behind _ rest)
    exact infix_around _ code rest

/-- **What is assembled from drafts passes what is emitted in their places.** -/
theorem passes_assemble {node : Node} (h : List.Forall₂ (Fills context) drafts places) :
    Passes context [] (Place.partsOf places) (fun code => [code]) (Draft.assemble context node drafts) := by
  unfold Draft.assemble
  cases h with
  | nil => exact passes_pure standIn_nil
  | cons hfirst hrest => exact passes_assembleFrom (.cons hfirst hrest)

/-- A node that is assembled from its children. -/
theorem passes_assemble_children (node : Node) :
    Passes context [] node.children (fun code => [code])
      (Draft.assemble context node (node.children.map (draft context))) := by
  have h : Passes context [] _ _ (Draft.assemble context node _) :=
    passes_assemble (fills_map_draft context node.children)
  rwa [Place.partsOf_map_ofNode] at h

/-- A node that loses some of its tokens. -/
theorem passes_dropTokens (context : Context) (kinds : List String) (node : Node) :
    Passes context [] (node.children.filter fun child => !(!child.isNamed && kinds.contains child.kind))
      (fun code => [code]) (Draft.dropTokens context kinds node (node.children.map (draft context))) := by
  have hfills := fills_replaceEach (p := Draft.isTokenAmong kinds) (f := fun _ => return [])
    (q := fun child => !child.isNamed && kinds.contains child.kind) (g := fun _ => [])
    (fills_map_draft context node.children) (fun _ => rfl) fun _ _ => passes_pure standIn_nil
  have h : Passes context [] _ _ (Draft.dropTokens context kinds node _) := passes_assemble hfills
  rwa [Place.partsOf_exchangeEach_nil] at h

end Fills

/-! ## §5. Pieces that are put in -/

/-- What the step yields holds the piece. -/
def Shows (piece : Code) (step : Emit Code) : Prop :=
  ∀ before code after, step.run before = .ok (code, after) → piece <:+: code

section Shows

variable {piece : Code} {drafts : List Draft} {found : Draft}

theorem shows_pure : Shows piece (pure piece) := by
  intro before code after hrun
  cases hrun
  exact List.infix_rfl

theorem shows_assembleFrom {source : String} {stop position : Nat} (hmem : found ∈ drafts)
    (h : Shows piece found.emission) : Shows piece (Draft.assembleFrom source stop position drafts) := by
  induction drafts generalizing position with
  | nil => exact absurd hmem List.not_mem_nil
  | cons draft drafts ih =>
    intro before whole after hrun
    unfold Draft.assembleFrom at hrun
    rw [StateT.run_bind] at hrun
    obtain ⟨⟨code, between⟩, hfirst, hrun⟩ := Result.bind_eq_ok_iff.mp hrun
    rw [StateT.run_bind] at hrun
    obtain ⟨⟨rest, last⟩, hbehind, hdone⟩ := Result.bind_eq_ok_iff.mp hrun
    cases hdone
    rcases List.mem_cons.mp hmem with rfl | hmem
    · exact (h _ _ _ hfirst).trans (infix_around _ code rest)
    · exact (ih hmem _ _ _ hbehind).trans (List.suffix_append _ rest).isInfix

/-- A piece that one of the drafts shows. -/
theorem shows_assemble {node : Node} (hmem : found ∈ drafts) (h : Shows piece found.emission) :
    Shows piece (Draft.assemble context node drafts) := by
  have hempty : drafts.isEmpty = false := by
    rw [List.isEmpty_eq_false_iff]
    exact List.ne_nil_of_mem hmem
  unfold Draft.assemble
  rw [if_neg (by rw [hempty]; exact Bool.false_ne_true)]
  exact shows_assembleFrom hmem h

theorem mem_replaceFirst {p : Draft → Bool} {f : Draft → Emit Code} (h : drafts.find? p = some found) :
    found.withEmission (f found) ∈ Draft.replaceFirst p f drafts := by
  induction drafts with
  | nil => cases h
  | cons draft drafts ih =>
    unfold Draft.replaceFirst
    cases hp : p draft with
    | true =>
      rw [List.find?_cons_of_pos hp] at h
      cases h
      rw [if_pos rfl]
      exact List.mem_cons_self
    | false =>
      rw [List.find?_cons_of_neg (by rw [hp]; exact Bool.false_ne_true)] at h
      rw [if_neg Bool.false_ne_true]
      exact List.mem_cons_of_mem _ (ih h)

end Shows

end Steps

section Rules

variable {context : Context} {node : Node}

/-! ## §6. Constructors -/

/-- A draft of one of the children is that of a node. -/
theorem forall_drafts {P : Draft → Prop} {nodes : List Node} (h : ∀ node ∈ nodes, P (draft context node)) :
    ∀ child ∈ nodes.map (draft context), P child :=
  List.forall_mem_map.mpr h

theorem passes_constructorBody (added : String) (body : Node) :
    Passes context [] (bodyParts body) (fun code => [code])
      (constructorBody context added (draft context body)) := by
  unfold constructorBody bodyParts
  rw [node_draft, children_draft]
  split
  · -- the call of the parent's constructor is emitted, and the text stands behind it
    have hcall (call : Node) : Passes context [] [call] (fun code => [code])
        (do return (← emit context call) ++ Code.ofText added) :=
      (passes_emit call).map fun code => standIn_singleton (List.prefix_append code _).isInfix
    have hfills := fills_replaceFirst (p := Draft.isNamed) (q := Node.isNamed) (g := fun call => [call])
      (f := fun call => do return (← call.emission) ++ Code.ofText added)
      (fills_map_draft context body.children) (fun _ => rfl)
      (forall_drafts fun call _ => by rw [node_draft]; exact hcall call)
    have h : Passes context [] _ _ (Draft.assemble context body _) := passes_assemble hfills
    rwa [Place.exchangeFirst_self, Place.partsOf_map_ofNode] at h
  · have hfills := fills_replaceEach (p := Draft.isTokenAmong ["\x7b"])
      (q := fun child => !child.isNamed && ["\x7b"].contains child.kind) (g := fun _ => [])
      (f := fun _ => return Code.ofText ("\x7b" ++ added))
      (fills_map_draft context body.children) (fun _ => rfl) fun _ _ => passes_pure standIn_nil
    have h : Passes context [] _ _ (Draft.assemble context body _) := passes_assemble hfills
    rwa [Place.partsOf_exchangeEach_nil] at h

theorem passes_methodDefinition (hkind : node.kind = "method_definition") :
    Passes context [] (methodParts context node) (fun code => [code])
      (methodDefinition context node (node.children.map (draft context))) := by
  show Passes context [] _ _ (if assignsProperties context node = true then _ else _)
  unfold methodParts keptChildren
  rw [hkind]
  split
  · refine passes_assemble (fills_replaceFirst (fills_map_draft context node.children) (fun _ => rfl) ?_)
    refine forall_drafts fun body _ => ?_
    rw [node_draft]
    exact passes_constructorBody _ body
  · exact passes_dropTokens context ["?"] node

/-! ## §7. Enumerations -/

/-- The fields of members pass their initialisers. -/
theorem passes_enumFields (next : NextValue) (members : List Node) :
    Passes context [] (members.filterMap initializer?) id
      (enumFields context next (members.map (draft context))) := by
  -- by induction on the members, of which each is emitted by one of three rules
  induction members generalizing next with
  | nil => exact passes_pure standIn_nil
  | cons member members ih =>
    by_cases hkind : member.kind = "enum_assignment"
    · rw [enumFields_assignment next hkind]
      refine still_demand.bind fun key _ => still_demand.bind fun initializer hinitializer => ?_
      rw [List.filterMap_cons_some hinitializer]
      refine (passes_emit initializer).bind fun code => still_lift.bind fun following _ => ?_
      refine (ih following).map fun fields => ?_
      have hfield : StandIn [code] [memberField context key code] := standIn_behind _ code
      exact (hfield.trans (standIn_of_subset (List.cons_subset_cons _ (List.nil_subset _)))).append
        (standIn_of_subset (List.subset_cons_self _ _))
    · rw [List.filterMap_cons_none (initializer?_of_ne hkind)]
      by_cases hbare : isBare member = true
      · rw [enumFields_bare next hbare]
        refine still_lift.bind fun taken _ => ?_
        cases taken with
        | none => exact passes_reject
        | some taken => exact (ih taken.2).map fun fields => standIn_of_subset (List.subset_cons_self _ _)
      · rw [enumFields_other next hkind ((Bool.not_eq_true _).mp hbare)]
        exact ih next

theorem passes_enumDeclaration (hkind : node.kind = "enum_declaration") :
    Passes context [] ((enumMembers node).filterMap initializer?) (fun code => [code]) (emit context node) := by
  rw [emit_enumDeclaration hkind, ← List.append_nil ((enumMembers node).filterMap initializer?)]
  refine (passes_enumFields (.numeral "0") (enumMembers node)).bind fun fields => ?_
  exact still_demand.bind fun name _ => passes_pure (standIn_around _ _ fields)

/-! ## §8. Properties of elements -/

theorem bracedExpression?_draft (node : Node) :
    bracedExpression? (draft context node).children = (expressionIn? node).map (draft context) := by
  have hkind : (fun child : Draft => child.kind != "comment") ∘ draft context = (·.kind != "comment") := by
    funext child
    rw [Function.comp_apply, kind_draft]
  unfold bracedExpression? expressionIn?
  rw [named_children_draft, List.find?_map, hkind]

theorem passes_attributeValue (value : Node) :
    Passes context [] (valueParts value) (fun code => [code])
      (attributeValue context (draft context value)) := by
  unfold attributeValue valueParts
  rw [kind_draft, node_draft, bracedExpression?_draft]
  split
  · exact still_decodable.bind fun _ _ => passes_pure standIn_nil
  · split
    · cases expressionIn? value with
      | none => exact passes_pure standIn_nil
      | some expression => exact passes_emit expression
    · exact passes_emit value

theorem passes_jsxAttribute (given : Node) :
    Passes context [] ((given.namedChildren[1]?.map valueParts).getD []) (fun code => [code])
      (jsxAttribute context (draft context given)) := by
  unfold jsxAttribute
  dsimp only
  rw [named_children_draft, List.getElem?_map]
  refine still_demand.bind fun name _ => ?_
  cases given.namedChildren[1]? with
  | none => exact passes_pure standIn_nil
  | some value => exact (passes_attributeValue value).map fun code => standIn_behind _ code

theorem passes_jsxProperty (part : Node) :
    Passes context [] (propertyParts part) id (jsxProperty context (draft context part)) := by
  have hkind : (fun child : Draft => child.kind == "spread_element") ∘ draft context
      = (·.kind == "spread_element") := by
    funext child
    rw [Function.comp_apply, kind_draft]
  unfold jsxProperty propertyParts
  rw [kind_draft, named_children_draft, List.find?_map, hkind]
  split
  · exact (passes_jsxAttribute part).singleton
  · split
    · cases part.namedChildren.find? (·.kind == "spread_element") with
      | none => exact passes_pure standIn_nil
      | some spread => exact (passes_emit spread).singleton
    · exact passes_pure standIn_nil

theorem passes_jsxPropertyList (parts : List Node) :
    Passes context [] (parts.flatMap propertyParts) id
      (jsxPropertyList context (parts.map (draft context))) := by
  induction parts with
  | nil => exact passes_pure standIn_nil
  | cons part parts ih =>
    rw [List.map_cons, List.flatMap_cons]
    unfold jsxPropertyList
    exact (passes_jsxProperty part).bind fun first => ih.map fun rest =>
      standIn_of_subset (List.Subset.refl _)

/-- The properties in a tag. -/
theorem passes_jsxProperties (tag : Node) :
    Passes context [] (tag.namedChildren.flatMap propertyParts) (fun code => [code])
      (jsxProperties context (tag.children.map (draft context))) := by
  unfold jsxProperties
  rw [named_map_draft, ← List.append_nil (List.flatMap _ _)]
  refine (passes_jsxPropertyList tag.namedChildren).bind fun properties => ?_
  split
  · exact passes_pure standIn_nil
  · exact passes_pure (standIn_around _ _ _)

/-! ## §9. Children of elements -/

theorem passes_runArguments (run : String) : Passes context [] [] id (runArguments run) := by
  unfold runArguments
  exact still_decodable.bind fun _ _ => passes_pure standIn_nil

theorem passes_jsxChild (child : Node) :
    Passes context [] (childParts child) id (jsxChild (draft context child)) := by
  unfold jsxChild childParts
  rw [kind_draft, bracedExpression?_draft]
  split
  · exact passes_pure standIn_nil
  · split
    · cases expressionIn? child with
      | none => exact passes_pure standIn_nil
      | some expression => exact (passes_emit expression).singleton
    · exact (passes_emit child).singleton

theorem passes_jsxArguments (stop position : Nat) (children : List Node) :
    Passes context [] (children.flatMap childParts) id
      (jsxArguments context stop position (children.map (draft context))) := by
  induction children generalizing position with
  | nil => exact passes_runArguments _
  | cons child children ih =>
    rw [List.map_cons, List.flatMap_cons]
    unfold jsxArguments
    -- the text in front of the child, the child, and what stands behind it
    rw [← List.nil_append (childParts child ++ _)]
    refine (passes_runArguments _).bind fun run => ?_
    refine ((passes_jsxChild child).behind run).bind fun own => ?_
    exact (ih _).map fun rest => standIn_of_subset (List.Subset.refl _)

/-- A child is emitted if it lies between the offsets, has a name and is no text. -/
theorem isInnerChild_draft (start stop : Nat) (child : Node) :
    isInnerChild start stop (draft context child) = (child.isNamed && start ≤ child.start && child.stop ≤ stop
      && child.kind != "jsx_text" && child.kind != "html_character_reference") := by
  rw [isInnerChild, isNamed_draft, node_draft, kind_draft]

theorem passes_jsxChildren (start stop : Nat) (node : Node) :
    Passes context [] (contentParts start stop node) id
      (jsxChildren context start stop (node.children.map (draft context))) := by
  have hinner : isInnerChild start stop ∘ draft context = _ := funext (isInnerChild_draft start stop)
  unfold jsxChildren contentParts
  rw [List.filter_map, hinner]
  exact passes_jsxArguments stop start _

/-! ## §10. Elements -/

/-- Properties and children stand in the call that makes an element. -/
theorem standIn_factoryCall (tag : String) (properties : Code) (children : List Code) :
    StandIn ([properties] ++ children) [factoryCall context tag properties children] := by
  refine StandIn.trans ?_ (standIn_around _ _ (Code.ofText tag :: properties :: children))
  exact standIn_of_subset (List.subset_cons_self _ _)

theorem passes_selfClosingElement (node : Node) :
    Passes context [] (node.namedChildren.flatMap propertyParts) (fun code => [code])
      (selfClosingElement context node (node.children.map (draft context))) :=
  (passes_jsxProperties node).map fun properties => standIn_factoryCall _ properties []

theorem passes_fragmentElement (node : Node) :
    Passes context [] (((bounds? node).map fun bounds => contentParts bounds.1.stop bounds.2.start node).getD [])
      (fun code => [code]) (fragmentElement context node (node.children.map (draft context))) := by
  unfold fragmentElement
  refine still_demand.bind fun start hstart => still_demand.bind fun stop hstop => ?_
  have hbounds : bounds? node = some (start, stop) := by
    unfold bounds?
    rw [hstart, hstop]
    rfl
  rw [hbounds]
  refine (passes_jsxChildren start.stop stop.start node).map fun arguments => ?_
  exact (standIn_of_subset (List.subset_append_right _ _)).trans (standIn_factoryCall _ _ arguments)

theorem passes_contentElement (node : Node) :
    Passes context [] (((tags? node).map fun tags =>
        tags.1.namedChildren.flatMap propertyParts ++ contentParts tags.1.stop tags.2.start node).getD [])
      (fun code => [code]) (contentElement context (node.children.map (draft context))) := by
  unfold contentElement
  rw [← children_draft, byField?_children_draft, byField?_children_draft, children_draft, List.head?_map,
    List.getLast?_map, ← map_orElse, ← map_orElse, demand_map, demand_map]
  simp only [bind_assoc, pure_bind]
  refine still_demand.bind fun opening hopening => still_demand.bind fun closing hclosing => ?_
  have htags : tags? node = some (opening, closing) := by
    unfold tags?
    rw [hopening, hclosing]
    rfl
  rw [htags, children_draft, node_draft, node_draft]
  refine (passes_jsxProperties opening).bind fun properties => ?_
  exact (passes_jsxChildren opening.stop closing.start node).map fun arguments =>
    standIn_factoryCall _ properties arguments

/-- What is left of the rule for elements when it has been noted that there is one. -/
theorem passes_element (node : Node) :
    Passes context [] (elementParts node) (fun code => [code])
      (if node.kind == "jsx_self_closing_element" then
          selfClosingElement context node (node.children.map (draft context))
        else if node.kind == "jsx_fragment" then
          fragmentElement context node (node.children.map (draft context))
        else contentElement context (node.children.map (draft context))) := by
  unfold elementParts
  split
  · exact passes_selfClosingElement node
  · split
    · exact passes_fragmentElement node
    · exact passes_contentElement node

end Rules

end LivePreview.Lowering
