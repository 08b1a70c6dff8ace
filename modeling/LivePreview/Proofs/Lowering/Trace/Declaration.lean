/-
  LivePreview.Proofs.Lowering.Trace.Declaration
  ─────────────────────────────────────────────
  **Where the code of constructors and enumerations stems from.**

  An assignment of a property takes the name from the parameter, and the rest of it is
  code of its own.  So are the braces, colons and commas of the object that an
  enumeration becomes, while the keys and the values are those of the members, or have
  been counted (`NextValue.Stems`).
-/
import LivePreview.Proofs.Lowering.Trace.Draft
import LivePreview.Proofs.Result

namespace LivePreview.Lowering

open LivePreview.Syntax (Node)

variable {context : Context} {root construct node : Node} {drafts : List Draft}

/-! ## §1. Constructors -/

/-- An assignment is code of its own around the name of the property. -/
theorem stemsAnywhere_assignment (hconstruct : IsRebuilt root construct) {name : String}
    (hname : StemsWithin context root construct (.ofText name)) :
    StemsAnywhere context root construct (.ofText (" this." ++ name ++ " = " ++ name ++ ";")) := by
  have hfront : StemsAnywhere context root construct (.ofText " this.") :=
    stemsAnywhere_fixed hconstruct (by decide)
  have hmiddle : StemsAnywhere context root construct (.ofText " = ") :=
    stemsAnywhere_fixed hconstruct (by decide)
  have hback : StemsAnywhere context root construct (.ofText ";") :=
    stemsAnywhere_fixed hconstruct (by decide)
  have hwhole := hfront.around (hname.join hmiddle hname) hback
  rw [Code.ofText_append, Code.ofText_append, Code.ofText_append, Code.ofText_append]
  simpa only [List.append_assoc] using hwhole

theorem ofText_assignments_cons (name : String) (names : List String) :
    Code.ofText (assignments (name :: names))
      = .ofText (" this." ++ name ++ " = " ++ name ++ ";") ++ .ofText (assignments names) := by
  unfold assignments
  rw [List.map_cons, String.join_cons, Code.ofText_append]

/-- Assignments behind code of its own. -/
theorem StemsAnywhere.append_assignments (hconstruct : IsRebuilt root construct)
    (hle : construct.start ≤ construct.stop) {names : List String}
    (hnames : ∀ name ∈ names, StemsWithin context root construct (.ofText name)) {front : Code}
    (hfront : StemsAnywhere context root construct front) :
    StemsAnywhere context root construct (front ++ .ofText (assignments names)) := by
  induction names generalizing front with
  | nil =>
    have hnil : Code.ofText (assignments []) = [] := rfl
    rwa [hnil, List.append_nil]
  | cons name names ih =>
    obtain ⟨hname, hrest⟩ := List.forall_mem_cons.mp hnames
    have hlonger := ih hrest (hfront.append (stemsAnywhere_assignment hconstruct hname) hle)
    rwa [ofText_assignments_cons, ← List.append_assoc]

section Constructors

variable (hplaced : ∀ node ∈ root.preorder, node.InPlace context.source)
include hplaced

/-- The names of the properties stand in the parameters of the method. -/
theorem stemsWithin_parameterProperties (hnode : node ∈ root.preorder) :
    ∀ name ∈ parameterProperties context node, StemsWithin context root node (.ofText name) := by
  intro name hname
  unfold parameterProperties at hname
  split at hname
  · cases hname
  · next parameters hparameters =>
    obtain ⟨parameter, hparameter, hproperty⟩ := List.mem_filterMap.mp hname
    unfold parameterProperty? at hproperty
    obtain ⟨pattern, hpattern, hname⟩ := Option.bind_eq_some_iff.mp hproperty
    -- the name is three levels down: in a parameter, among the parameters, in the method
    have hpart : IsPart root node pattern :=
      (((isPart_self hnode).of_mem_children hplaced (List.mem_of_find?_eq_some hparameters)).of_mem_children
        hplaced (List.mem_filter.mp hparameter).1).of_mem_children hplaced
          (List.mem_of_find?_eq_some hpattern)
    split at hname
    · cases hname
      exact hpart.text_stemsWithin hplaced
    · cases hname

/-- The assignments come behind the call of the parent's constructor, or behind the opening brace. -/
theorem yields_constructorBody (hconstruct : IsRebuilt root construct) {names : List String}
    (hnames : ∀ name ∈ names, StemsWithin context root construct (.ofText name)) (hne : names ≠ [])
    {body : Draft} (hbody : body.Within context root construct) :
    Yields (constructorBody context (assignments names) body)
      (Stems context root body.node.start body.node.stop) := by
  have hle := (hplaced construct hconstruct.mem).le
  unfold constructorBody
  split
  · refine Draft.yields_assemble hbody.part.mem
      ((Draft.map_node_replaceFirst _ _ _).trans hbody.traced.nodes_eq)
      (hbody.traced.children.tracing.replaceFirst fun call hcall => ?_)
    have hcall := hbody.children hplaced call (List.mem_of_find?_eq_some hcall)
    -- the call keeps its code, and the assignments start where it stops
    refine hcall.traced.emission.map fun code hcode => ?_
    obtain ⟨name, names, rfl⟩ := List.exists_cons_of_ne_nil hne
    obtain ⟨hname, hrest⟩ := List.forall_mem_cons.mp hnames
    have hadded := StemsAnywhere.append_assignments hconstruct hle hrest
      (stemsAnywhere_assignment hconstruct hname)
    have hstop := hcall.part.spans_stop (hplaced call.node hcall.part.mem).le
    rw [ofText_assignments_cons]
    exact hcode.append (hadded _ _ hstop hstop)
  · refine Draft.yields_assemble hbody.part.mem
      ((Draft.map_node_replaceEach _ _ _).trans hbody.traced.nodes_eq)
      (hbody.traced.children.tracing.replaceEach fun brace hbrace _ => yields_pure ?_)
    -- the brace is code of its own together with the assignments
    have hfront : StemsAnywhere context root construct (.ofText "\x7b") :=
      stemsAnywhere_fixed hconstruct (by decide)
    rw [Code.ofText_append]
    exact (hfront.append_assignments hconstruct hle hnames).in_place_of hplaced
      (hbody.children hplaced brace hbrace).part

theorem yields_methodDefinition (hnode : node ∈ root.preorder) (hkind : node.kind = "method_definition")
    (hnodes : drafts.map Draft.node = node.children) (h : Draft.AllTraced context root drafts) :
    Yields (methodDefinition context node drafts) (Stems context root node.start node.stop) := by
  unfold methodDefinition
  dsimp only
  split
  · next hconstructor =>
    have hproperties : parameterProperties context node ≠ [] := by
      intro hnil
      rw [hnil] at hconstructor
      simp at hconstructor
    refine Draft.yields_assemble hnode ((Draft.map_node_replaceFirst _ _ _).trans hnodes)
      (h.tracing.replaceFirst fun body hbody => ?_)
    exact yields_constructorBody hplaced ⟨hnode, by rw [hkind]; decide⟩
      (stemsWithin_parameterProperties hplaced hnode) hproperties
      (h.within hplaced hnode hnodes body (List.mem_of_find?_eq_some hbody))
  · exact Draft.yields_dropTokens hnode hnodes h.tracing (by rw [hkind]; rfl)

end Constructors

/-! ## §2. Enumerations -/

/-- The value that a member without initialiser takes has been counted, or stems from the
enumeration. -/
def NextValue.Stems (context : Context) (root construct : Node) : NextValue → Prop
  | .numeral text => IsCounted text
  | .value code => StemsWithin context root construct code
  | .unknown => True

/-- What follows a numeral has been counted, or is not known. -/
theorem counted_afterNumeral {text : String} {next : NextValue} (h : NextValue.afterNumeral text = .ok next) :
    next = .unknown ∨ ∃ digits, next = .numeral digits ∧ IsCounted digits := by
  unfold NextValue.afterNumeral at h
  obtain ⟨successor?, hsuccessor, hnext⟩ := Result.bind_eq_ok_iff.mp h
  cases successor? with
  | none =>
    cases hnext
    exact .inl rfl
  | some digits =>
    cases hnext
    exact .inr ⟨digits, rfl, .inr ⟨text, hsuccessor⟩⟩

theorem stems_afterNumeral {text : String} {next : NextValue} (h : NextValue.afterNumeral text = .ok next) :
    next.Stems context root construct := by
  rcases counted_afterNumeral h with rfl | ⟨digits, rfl, hcounted⟩
  · exact trivial
  · exact hcounted

section Enumerations

variable (hplaced : ∀ node ∈ root.preorder, node.InPlace context.source)
include hplaced

theorem stemsWithin_sumOf (hconstruct : IsRebuilt root construct) {value : Code}
    (hvalue : StemsWithin context root construct value) :
    StemsWithin context root construct (sumOf value) := by
  have hfront : StemsAnywhere context root construct (.ofText "(") :=
    stemsAnywhere_fixed hconstruct (by decide)
  exact (hfront.around hvalue (stemsAnywhere_fixed hconstruct (by decide))).within
    (hplaced construct hconstruct.mem).le

/-- What a member without initialiser takes, and the value behind it. -/
theorem stems_take? (hconstruct : IsRebuilt root construct) {next following : NextValue} {value : Code}
    (hnext : next.Stems context root construct) (htake : next.take? = .ok (some (value, following))) :
    StemsWithin context root construct value ∧ following.Stems context root construct := by
  have hle := (hplaced construct hconstruct.mem).le
  cases next with
  | numeral text =>
    -- what has been counted is no text of the source, and what cannot be counted on is added to
    have hvalue : StemsWithin context root construct (.ofText text) :=
      stemsWithin_made hconstruct hle (.counted hnext)
    unfold NextValue.take? at htake
    dsimp only at htake
    split at htake
    · obtain ⟨following, hfollowing, hpair⟩ := Result.bind_eq_ok_iff.mp htake
      cases hpair
      exact ⟨hvalue, stems_afterNumeral hfollowing⟩
    · cases htake
      exact ⟨hvalue, stemsWithin_sumOf hplaced hconstruct hvalue⟩
  | value code =>
    cases htake
    exact ⟨hnext, stemsWithin_sumOf hplaced hconstruct hnext⟩
  | unknown => cases htake

theorem stems_nextAfter (hconstruct : IsRebuilt root construct) {initializer : Node} {value : Code}
    {next : NextValue} (hvalue : StemsWithin context root construct value)
    (hnext : nextAfter context initializer value = .ok next) : next.Stems context root construct := by
  unfold nextAfter at hnext
  split at hnext
  · exact stems_afterNumeral hnext
  · split at hnext
    · cases hnext
      exact trivial
    · cases hnext
      exact stemsWithin_sumOf hplaced hconstruct hvalue

theorem stemsWithin_memberField (hconstruct : IsRebuilt root construct) {key : Node} {value : Code}
    (hkey : IsPart root construct key) (hvalue : StemsWithin context root construct value) :
    StemsWithin context root construct (memberField context key value) := by
  unfold memberField
  rw [Code.ofText_append]
  exact (hkey.text_stemsWithin hplaced).join (stemsAnywhere_fixed hconstruct (by decide)) hvalue

theorem yields_enumFields (hconstruct : IsRebuilt root construct) {next : NextValue}
    (hnext : next.Stems context root construct) {members : List Draft}
    (hmembers : Draft.AllWithin context root construct members) :
    Yields (enumFields context next members) (AllStemWithin context root construct) := by
  induction members generalizing next with
  | nil => exact yields_pure allStemWithin_nil
  | cons member members ih =>
    obtain ⟨hmember, hrest⟩ := List.forall_mem_cons.mp hmembers
    have hchildren := hmember.children hplaced
    unfold enumFields
    split
    · -- a member with an initialiser
      refine yields_demand.bind fun key hkey => yields_demand.bind fun initializer hinitializer => ?_
      have hkey := hchildren.orElse hchildren.named (fun _ => List.mem_of_find?_eq_some)
        (fun _ => List.mem_of_head?) hkey
      have hinitializer := hchildren.orElse hchildren.named (fun _ => List.mem_of_find?_eq_some)
        (fun _ => List.mem_of_getLast?) hinitializer
      refine (hinitializer.emission hplaced).bind fun value hvalue => yields_lift.bind
        fun following hfollowing => ?_
      have hfield := stemsWithin_memberField hplaced hconstruct hkey.part hvalue
      exact (ih (stems_nextAfter hplaced hconstruct hvalue hfollowing) hrest).map fun fields hfields =>
        .cons hfield hfields
    · split
      · -- a member that takes the next value
        refine yields_lift.bind fun taken htaken => ?_
        cases taken with
        | none => exact yields_reject
        | some pair =>
          obtain ⟨hvalue, hfollowing⟩ := stems_take? hplaced hconstruct hnext htaken
          have hfield := stemsWithin_memberField hplaced hconstruct hmember.part hvalue
          exact (ih hfollowing hrest).map fun fields hfields => .cons hfield hfields
      · exact ih hnext hrest

theorem yields_enumDeclaration (hnode : node ∈ root.preorder) (hkind : node.kind = "enum_declaration")
    (hnodes : drafts.map Draft.node = node.children) (h : Draft.AllTraced context root drafts) :
    Yields (enumDeclaration context node drafts) (Stems context root node.start node.stop) := by
  have hrebuilt : IsRebuilt root node := ⟨hnode, by rw [hkind]; decide⟩
  have hmembers : Draft.AllWithin context root node
      (((Draft.byField? "body" drafts).map fun body => Draft.named body.children).getD []) := by
    cases hbody : Draft.byField? "body" drafts with
    | none => exact fun _ hmember => absurd hmember List.not_mem_nil
    | some body =>
      have hwithin := h.within hplaced hnode hnodes body (List.mem_of_find?_eq_some hbody)
      exact (hwithin.children hplaced).named
  unfold enumDeclaration
  have hfirst : (NextValue.numeral "0").Stems context root node := Or.inl rfl
  refine (yields_enumFields hplaced hrebuilt hfirst hmembers).bind fun fields hfields => ?_
  refine yields_demand.map fun name hname => ?_
  have hname := ((isPart_self hnode).of_mem_children hplaced
    (List.mem_of_find?_eq_some hname)).text_stemsWithin hplaced
  have hconst : StemsAnywhere context root node (.ofText "const ") :=
    stemsAnywhere_fixed hrebuilt (by decide)
  have hbrace : StemsAnywhere context root node (.ofText " = Object.freeze(\x7b ") :=
    stemsAnywhere_fixed hrebuilt (by decide)
  rw [Code.ofText_append, Code.ofText_append]
  exact ((hconst.around hname hbrace).around_joinWith (stemsAnywhere_fixed hrebuilt (by decide)) hfields
    (stemsAnywhere_fixed hrebuilt (by decide)) (hplaced node hnode).le).in_place_of hplaced (isPart_self hnode)

end Enumerations

end LivePreview.Lowering
