/-
  LivePreview.Proofs.Lowering.Sites.Rules
  ───────────────────────────────────────
  **Constructors, enumerations and elements emit their parts in order.**

  The rules emit the drafts that they use one after the other, in the order in which
  what they yield stands in the code.  Only the value of an enumeration member is used
  again, for the members behind it; its numbers have been given out by then
  (`NextValue.Earlier`).
-/
import LivePreview.Lowering.Declaration
import LivePreview.Lowering.Jsx
import LivePreview.Proofs.Lowering.Emit
import LivePreview.Proofs.Lowering.Sites.Tally

namespace LivePreview.Lowering

open LivePreview.Syntax (Node)
open Code (numbersOf)

variable {context : Context} {loud : Bool} {count : Nat} {front : List Nat}

/-! ## §1. Constructors -/

theorem tallies_constructorBody {added : String} {body : Draft} (h : body.Orderly loud) :
    Tallies 0 [] Code.numbers loud (constructorBody context added body) := by
  have hchildren : Draft.AllOrderly loud body.children := h.children
  unfold constructorBody
  refine Draft.tallies_assemble ?_
  split
  · refine hchildren.tallying.replaceFirst fun call hcall => ?_
    exact (hchildren call hcall).emission.map fun code => by simp
  · exact hchildren.tallying.replaceEach fun _ _ => tallies_pure (Code.numbers_ofText _)

theorem tallies_methodDefinition {node : Node} {children : List Draft}
    (h : Draft.AllOrderly loud children) :
    Tallies 0 [] Code.numbers loud (methodDefinition context node children) := by
  unfold methodDefinition
  dsimp only
  split
  · refine Draft.tallies_assemble (h.tallying.replaceFirst fun body hbody => ?_)
    exact tallies_constructorBody (h body hbody)
  · exact Draft.tallies_dropTokens h.tallying

/-! ## §2. Enumerations -/

@[simp] theorem numbers_sumOf (value : Code) : (sumOf value).numbers = value.numbers := by
  simp [sumOf]

@[simp] theorem numbers_memberField (key : Node) (value : Code) :
    (memberField context key value).numbers = value.numbers := by
  simp [memberField]

/-- What a member without initialiser takes holds no numbers that have not been given out. -/
def NextValue.Earlier (loud : Bool) (count : Nat) : NextValue → Prop
  | .numeral _ | .unknown => True
  | .value code => Lowering.Earlier loud count code.numbers

/-- Behind a numeral stands no code. -/
theorem NextValue.earlier_afterNumeral {text : String} {next : NextValue}
    (hok : NextValue.afterNumeral text = .ok next) : next.Earlier loud count := by
  obtain ⟨digits?, -, hnext⟩ := Result.bind_eq_ok_iff.mp hok
  cases digits? <;> cases hnext <;> exact trivial

theorem earlier_nextAfter {initializer : Node} {value : Code} (hvalue : Earlier loud count value.numbers)
    {next : NextValue} (hok : nextAfter context initializer value = .ok next) :
    next.Earlier loud count := by
  unfold nextAfter at hok
  split at hok
  · exact NextValue.earlier_afterNumeral hok
  · split at hok
    · cases hok
      exact trivial
    · cases hok
      show Lowering.Earlier loud count (sumOf value).numbers
      rwa [numbers_sumOf]

/-- Neither does the value that is taken, nor the one behind it. -/
theorem NextValue.Earlier.take? {next following : NextValue} (h : next.Earlier loud count) {value : Code}
    (hok : next.take? = .ok (some (value, following))) :
    Lowering.Earlier loud count value.numbers ∧ following.Earlier loud count := by
  cases next with
  | unknown => cases hok
  | value code =>
    cases hok
    refine ⟨h, ?_⟩
    show Lowering.Earlier loud count (sumOf value).numbers
    rw [numbers_sumOf]
    exact h
  | numeral text =>
    have htext : Lowering.Earlier loud count (Code.ofText text).numbers := by
      rw [Code.numbers_ofText]
      exact earlier_nil
    unfold NextValue.take? at hok
    dsimp only at hok
    split at hok
    · obtain ⟨after, hafter, htaken⟩ := Result.bind_eq_ok_iff.mp hok
      cases htaken
      exact ⟨htext, NextValue.earlier_afterNumeral hafter⟩
    · cases hok
      refine ⟨htext, ?_⟩
      show Lowering.Earlier loud count (sumOf (Code.ofText text)).numbers
      rwa [numbers_sumOf]

/-- The fields come in order, whatever the value of the first member is. -/
theorem tallies_enumFields {next : NextValue} {members : List Draft} (hnext : next.Earlier loud count)
    (h : Draft.AllOrderly loud members) :
    Tallies count [] numbersOf loud (enumFields context next members) := by
  induction members generalizing count next with
  | nil => exact tallies_pure Code.numbersOf_nil
  | cons member members ih =>
    obtain ⟨hmember, hrest⟩ := List.forall_mem_cons.mp h
    have hchildren : Draft.AllOrderly loud member.children := hmember.children
    unfold enumFields
    split
    · -- a member with an initializer of its own
      refine silent_demand.bind fun key _ => silent_demand.bind fun initializer hinitializer => ?_
      have hmem : initializer ∈ member.children := by
        rcases Draft.eq_some_or_of_orElse hinitializer with hfield | hlast
        · exact List.mem_of_find?_eq_some hfield
        · exact (List.mem_filter.mp (List.mem_of_getLast? hlast)).1
      refine ((hchildren initializer hmem).emission.mono (Nat.zero_le count)).bind
        fun k value own hk hnumbers hearlier => silent_lift.bind fun following hfollowing => ?_
      rw [List.nil_append] at hnumbers
      rw [← hnumbers] at hearlier
      exact (ih (earlier_nextAfter hearlier hfollowing) hrest).map fun fields => by simp
    · split
      · -- a member that takes the next value, which stands in the code once more
        refine silent_lift.bind fun taken htaken => ?_
        split
        · exact tallies_reject
        · next value following =>
          obtain ⟨hvalue, hfollowing⟩ := hnext.take? htaken
          refine Tallies.of_earlier ?_ hvalue
          exact (ih hfollowing hrest).map fun fields => by simp
      · exact ih hnext hrest

theorem tallies_enumDeclaration {node : Node} {children : List Draft}
    (h : Draft.AllOrderly loud children) :
    Tallies 0 [] Code.numbers loud (enumDeclaration context node children) := by
  have hmembers : Draft.AllOrderly loud
      (((Draft.byField? "body" children).map fun body => Draft.named body.children).getD []) := by
    cases hbody : Draft.byField? "body" children with
    | none => exact fun _ hmem => absurd hmem List.not_mem_nil
    | some body =>
      have hchildren : Draft.AllOrderly loud body.children :=
        (h body (List.mem_of_find?_eq_some hbody)).children
      exact hchildren.named
  have hzero : (NextValue.numeral "0").Earlier loud 0 := trivial
  unfold enumDeclaration
  dsimp only
  refine (tallies_enumFields hzero hmembers).bind fun k fields _ _ _ _ => ?_
  exact silent_demand.bind fun name _ => tallies_pure (by simp)

/-! ## §3. Tags and properties -/

theorem silent_decodable {α : Type} {result : Except Text.CharacterReference.Overlong α} :
    Silent (decodable result) fun _ => True := by
  cases result with
  | error overlong => exact silent_throw
  | ok a =>
    intro before b after htallied hrun
    cases hrun
    exact ⟨htallied, rfl, trivial⟩

/-- A step whose code is all that is emitted. -/
theorem Tallies.singleton {step : Emit Code} (h : Tallies 0 [] Code.numbers loud step) :
    Tallies 0 [] numbersOf loud (step >>= fun code => pure [code]) :=
  h.map fun code => by simp

theorem tallies_bracedExpression {children : List Draft} (h : Draft.AllOrderly loud children)
    {expression : Draft} (hexpression : bracedExpression? children = some expression) :
    Tallies 0 [] Code.numbers loud expression.emission :=
  (h.named expression (List.mem_of_find?_eq_some hexpression)).emission

theorem tallies_attributeValue {value : Draft} (h : value.Orderly loud) :
    Tallies 0 [] Code.numbers loud (attributeValue context value) := by
  unfold attributeValue
  split
  · exact silent_decodable.bind fun text _ => tallies_pure (Code.numbers_ofText _)
  · split
    · split
      · next expression hexpression => exact tallies_bracedExpression h.children hexpression
      · exact tallies_pure (Code.numbers_ofText _)
    · exact h.emission

theorem tallies_jsxAttribute {given : Draft} (h : given.Orderly loud) :
    Tallies 0 [] Code.numbers loud (jsxAttribute context given) := by
  have hparts : Draft.AllOrderly loud (Draft.named given.children) := Draft.AllOrderly.named h.children
  unfold jsxAttribute
  dsimp only
  refine silent_demand.bind fun name _ => ?_
  split
  · exact tallies_pure (Code.numbers_ofText _)
  · next value hvalue =>
    exact (tallies_attributeValue (hparts value (List.mem_of_getElem? hvalue))).map fun code => by simp

theorem tallies_jsxProperty {part : Draft} (h : part.Orderly loud) :
    Tallies 0 [] numbersOf loud (jsxProperty context part) := by
  unfold jsxProperty
  split
  · exact (tallies_jsxAttribute h).singleton
  · split
    · split
      · next spread hspread =>
        have hchildren : Draft.AllOrderly loud part.children := h.children
        exact (hchildren.named spread (List.mem_of_find?_eq_some hspread)).emission.singleton
      · exact tallies_pure Code.numbersOf_nil
    · exact tallies_pure Code.numbersOf_nil

theorem tallies_jsxPropertyList {parts : List Draft} (h : Draft.AllOrderly loud parts) :
    Tallies 0 [] numbersOf loud (jsxPropertyList context parts) := by
  induction parts with
  | nil => exact tallies_pure Code.numbersOf_nil
  | cons part parts ih =>
    obtain ⟨hpart, hrest⟩ := List.forall_mem_cons.mp h
    unfold jsxPropertyList
    refine (tallies_jsxProperty hpart).bind fun k first _ _ _ _ => ?_
    exact ((ih hrest).mono (Nat.zero_le k)).map fun rest => by simp

theorem tallies_jsxProperties {parts : List Draft} (h : Draft.AllOrderly loud parts) :
    Tallies 0 [] Code.numbers loud (jsxProperties context parts) := by
  unfold jsxProperties
  refine (tallies_jsxPropertyList h.named).bind fun k properties _ _ _ _ => ?_
  split
  · exact tallies_pure (by simp)
  · exact tallies_pure (by simp)

/-! ## §4. Children -/

theorem tallies_runArguments {run : String} :
    Tallies 0 [] numbersOf loud (runArguments run) := by
  unfold runArguments
  refine silent_decodable.bind fun text _ => ?_
  split
  · exact tallies_pure Code.numbersOf_nil
  · exact tallies_pure (by simp)

theorem tallies_jsxChild {child : Draft} (h : child.Orderly loud) :
    Tallies 0 [] numbersOf loud (jsxChild child) := by
  unfold jsxChild
  split
  · exact tallies_pure Code.numbersOf_nil
  · split
    · split
      · next expression hexpression =>
        exact (tallies_bracedExpression h.children hexpression).singleton
      · exact tallies_pure Code.numbersOf_nil
    · exact h.emission.singleton

theorem tallies_jsxArguments {stop position : Nat} {children : List Draft}
    (h : Draft.AllOrderly loud children) :
    Tallies 0 [] numbersOf loud (jsxArguments context stop position children) := by
  induction children generalizing position with
  | nil => exact tallies_runArguments
  | cons child children ih =>
    obtain ⟨hchild, hrest⟩ := List.forall_mem_cons.mp h
    unfold jsxArguments
    refine tallies_runArguments.bind fun k run _ _ _ _ => ?_
    refine (((tallies_jsxChild hchild).mono (Nat.zero_le k)).behind (numbersOf run)).bind
      fun l own _ _ _ _ => ?_
    exact ((ih hrest).mono (Nat.zero_le l)).map fun rest => by simp

theorem tallies_jsxChildren {start stop : Nat} {children : List Draft}
    (h : Draft.AllOrderly loud children) :
    Tallies 0 [] numbersOf loud (jsxChildren context start stop children) :=
  tallies_jsxArguments fun child hchild => h child (List.mem_filter.mp hchild).1

/-! ## §5. Elements -/

@[simp] theorem numbers_factoryCall (tag : String) (properties : Code) (children : List Code) :
    (factoryCall context tag properties children).numbers
      = properties.numbers ++ numbersOf children := by
  simp [factoryCall]

theorem tallies_selfClosingElement {node : Node} {children : List Draft}
    (h : Draft.AllOrderly loud children) :
    Tallies 0 [] Code.numbers loud (selfClosingElement context node children) :=
  (tallies_jsxProperties h).map fun properties => by simp

theorem tallies_fragmentElement {node : Node} {children : List Draft}
    (h : Draft.AllOrderly loud children) :
    Tallies 0 [] Code.numbers loud (fragmentElement context node children) := by
  unfold fragmentElement
  refine silent_demand.bind fun start _ => silent_demand.bind fun stop _ => ?_
  exact (tallies_jsxChildren h).map fun arguments => by simp

theorem tallies_contentElement {children : List Draft} (h : Draft.AllOrderly loud children) :
    Tallies 0 [] Code.numbers loud (contentElement context children) := by
  unfold contentElement
  refine silent_demand.bind fun opening hopening => silent_demand.bind fun closing _ => ?_
  have hmem : opening ∈ children := by
    rcases Draft.eq_some_or_of_orElse hopening with hfield | hhead
    · exact List.mem_of_find?_eq_some hfield
    · exact List.mem_of_head? hhead
  have hparts : Draft.AllOrderly loud opening.children := (h opening hmem).children
  refine (tallies_jsxProperties hparts).bind fun k properties _ _ _ _ => ?_
  exact ((tallies_jsxChildren h).mono (Nat.zero_le k)).map fun arguments => by simp

theorem tallies_jsxElement {node : Node} {children : List Draft} (h : Draft.AllOrderly loud children) :
    Tallies 0 [] Code.numbers loud (jsxElement context node children) := by
  have hnote : Silent (modify fun state : State => { state with usesJsx := true }) fun _ => True :=
    silent_modify (fun _ => rfl) fun _ => rfl
  unfold jsxElement
  refine hnote.bind fun _ _ => ?_
  split
  · exact tallies_selfClosingElement h
  · split
    · exact tallies_fragmentElement h
    · exact tallies_contentElement h

end LivePreview.Lowering
