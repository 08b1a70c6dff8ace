/-
  LivePreview.Proofs.Lowering.Trace.Jsx
  ─────────────────────────────────────
  **Where the code of elements stems from.**

  The call that an element becomes starts and ends with code of its own
  (`stemsAnywhere_factoryCall`).  Its arguments, and the properties among them, stem from
  the element or are code of their own, and there are commas between them.
-/
import LivePreview.Proofs.Lowering.Emission
import LivePreview.Proofs.Lowering.Trace.Draft

namespace LivePreview.Lowering

open LivePreview.Syntax (Node)

variable {context : Context} {root construct node : Node} {drafts : List Draft}

section Elements

variable (hplaced : ∀ node ∈ root.preorder, node.InPlace context.source)
  (hconstruct : IsRebuilt root construct)
include hplaced hconstruct

theorem stemsWithin_literal (text : Text) :
    StemsWithin context root construct (.ofText (Json.literal text)) :=
  stemsWithin_made hconstruct (hplaced construct hconstruct.mem).le (.literal text)

theorem stemsWithin_fixed {text : String} (htext : text ∈ madeTexts) :
    StemsWithin context root construct (.ofText text) :=
  stemsWithin_made hconstruct (hplaced construct hconstruct.mem).le (.fixed htext)

/-! ## §1. Tags and properties -/

theorem stemsWithin_jsxTag {element : Node} (helement : IsPart root construct element) :
    StemsWithin context root construct (.ofText (jsxTag context element)) := by
  unfold jsxTag
  split
  · exact stemsWithin_made hconstruct (hplaced construct hconstruct.mem).le .fragment
  · next name hname =>
    dsimp only
    split
    · exact stemsWithin_literal hplaced hconstruct _
    · exact (helement.of_mem_children hplaced (List.mem_of_find?_eq_some hname)).text_stemsWithin hplaced

theorem yields_attributeValue {value : Draft} (h : value.Within context root construct) :
    Yields (attributeValue context value) (StemsWithin context root construct) := by
  unfold attributeValue
  split
  · exact Yields.map (P := fun _ => True) ensures_decodable
      fun text _ => stemsWithin_literal hplaced hconstruct _
  · split
    · split
      · next expression hexpression =>
        exact ((h.children hplaced).named expression (List.mem_of_find?_eq_some hexpression)).emission hplaced
      · exact yields_pure (stemsWithin_fixed hplaced hconstruct (by decide))
    · exact h.emission hplaced

theorem yields_jsxAttribute {given : Draft} (h : given.Within context root construct) :
    Yields (jsxAttribute context given) (StemsWithin context root construct) := by
  have hparts := (h.children hplaced).named
  unfold jsxAttribute
  refine yields_demand.bind fun name hname => ?_
  -- a key that cannot stand as it is becomes a literal
  have hkey : StemsWithin context root construct (.ofText
      (if isPlainKey (context.text name.node) then context.text name.node
        else Json.literal (context.text name.node))) := by
    split
    · exact (hparts name (List.mem_of_head? hname)).part.text_stemsWithin hplaced
    · exact stemsWithin_literal hplaced hconstruct _
  dsimp only
  split
  · refine yields_pure ?_
    rw [Code.ofText_append]
    exact hkey.append (stemsAnywhere_fixed hconstruct (by decide))
  · next value hvalue =>
    have hvalue := hparts value (List.mem_of_getElem? hvalue)
    refine (yields_attributeValue hplaced hconstruct hvalue).map fun code hcode => ?_
    rw [Code.ofText_append]
    exact hkey.join (stemsAnywhere_fixed hconstruct (by decide)) hcode

theorem yields_jsxProperty {part : Draft} (h : part.Within context root construct) :
    Yields (jsxProperty context part) (AllStemWithin context root construct) := by
  unfold jsxProperty
  split
  · exact (yields_jsxAttribute hplaced hconstruct h).map fun _ hcode => .cons hcode allStemWithin_nil
  · split
    · split
      · next spread hspread =>
        have hspread := (h.children hplaced).named spread (List.mem_of_find?_eq_some hspread)
        exact (hspread.emission hplaced).map fun _ hcode => .cons hcode allStemWithin_nil
      · exact yields_pure allStemWithin_nil
    · exact yields_pure allStemWithin_nil

theorem yields_jsxPropertyList {parts : List Draft} (h : Draft.AllWithin context root construct parts) :
    Yields (jsxPropertyList context parts) (AllStemWithin context root construct) := by
  induction parts with
  | nil => exact yields_pure allStemWithin_nil
  | cons part parts ih =>
    obtain ⟨hpart, hrest⟩ := List.forall_mem_cons.mp h
    unfold jsxPropertyList
    exact (yields_jsxProperty hplaced hconstruct hpart).bind fun first hfirst =>
      (ih hrest).map fun rest hrest => hfirst.append hrest

theorem yields_jsxProperties {parts : List Draft} (h : Draft.AllWithin context root construct parts) :
    Yields (jsxProperties context parts) (StemsWithin context root construct) := by
  unfold jsxProperties
  refine (yields_jsxPropertyList hplaced hconstruct h.named).bind fun properties hproperties => ?_
  split
  · exact yields_pure (stemsWithin_fixed hplaced hconstruct (by decide))
  · have hle := (hplaced construct hconstruct.mem).le
    have hfront : StemsAnywhere context root construct (.ofText "\x7b ") :=
      stemsAnywhere_fixed hconstruct (by decide)
    exact yields_pure ((hfront.around_joinWith (stemsAnywhere_fixed hconstruct (by decide)) hproperties
      (stemsAnywhere_fixed hconstruct (by decide)) hle).within hle)

/-! ## §2. Children -/

theorem yields_runArguments {run : String} :
    Yields (runArguments run) (AllStemWithin context root construct) := by
  unfold runArguments
  refine Yields.map (P := fun _ => True) ensures_decodable fun text _ => ?_
  split
  · exact allStemWithin_nil
  · exact .cons (stemsWithin_literal hplaced hconstruct _) allStemWithin_nil

omit hconstruct in
theorem yields_jsxChild {child : Draft} (h : child.Within context root construct) :
    Yields (jsxChild child) (AllStemWithin context root construct) := by
  unfold jsxChild
  split
  · exact yields_pure allStemWithin_nil
  · split
    · split
      · next expression hexpression =>
        have hexpression := (h.children hplaced).named expression (List.mem_of_find?_eq_some hexpression)
        exact (hexpression.emission hplaced).map fun _ hcode => .cons hcode allStemWithin_nil
      · exact yields_pure allStemWithin_nil
    · exact (h.emission hplaced).map fun _ hcode => .cons hcode allStemWithin_nil

theorem yields_jsxArguments {stop position : Nat} {children : List Draft}
    (h : Draft.AllWithin context root construct children) :
    Yields (jsxArguments context stop position children) (AllStemWithin context root construct) := by
  induction children generalizing position with
  | nil => exact yields_runArguments hplaced hconstruct
  | cons child children ih =>
    obtain ⟨hchild, hrest⟩ := List.forall_mem_cons.mp h
    unfold jsxArguments
    exact (yields_runArguments hplaced hconstruct).bind fun run hrun =>
      (yields_jsxChild hplaced hchild).bind fun own hown =>
        (ih hrest).map fun rest hrest => (hrun.append hown).append hrest

theorem yields_jsxChildren {start stop : Nat} {children : List Draft}
    (h : Draft.AllWithin context root construct children) :
    Yields (jsxChildren context start stop children) (AllStemWithin context root construct) :=
  yields_jsxArguments hplaced hconstruct fun child hchild => h child (List.mem_filter.mp hchild).1

/-! ## §3. Elements -/

/-- The call stands for the element as a whole. -/
theorem stems_factoryCall {tag : String} {properties : Code} {children : List Code}
    (htag : StemsWithin context root construct (.ofText tag))
    (hproperties : StemsWithin context root construct properties)
    (hchildren : AllStemWithin context root construct children) :
    Stems context root construct.start construct.stop (factoryCall context tag properties children) := by
  -- whatever the factory is called, the bracket behind it stands
  have hne : Code.ofText (context.options.factory ++ "(") ≠ [] := by
    rw [Code.ofText_append]
    exact List.append_ne_nil_of_right_ne_nil _ (by decide)
  have hfront := stemsAnywhere_made hconstruct .factory hne
  have hall : AllStemWithin context root construct (Code.ofText tag :: properties :: children) :=
    .cons htag (.cons hproperties hchildren)
  exact (hfront.around_joinWith (stemsAnywhere_fixed hconstruct (by decide)) hall
    (stemsAnywhere_fixed hconstruct (by decide)) (hplaced construct hconstruct.mem).le).in_place_of hplaced
      (isPart_self hconstruct.mem)

omit hconstruct
variable (hnode : IsRebuilt root node) (h : Draft.AllWithin context root node drafts)
include hnode h

theorem yields_selfClosingElement :
    Yields (selfClosingElement context node drafts) (Stems context root node.start node.stop) := by
  unfold selfClosingElement
  exact (yields_jsxProperties hplaced hnode h).map fun properties hproperties =>
    stems_factoryCall hplaced hnode (stemsWithin_jsxTag hplaced hnode (isPart_self hnode.mem)) hproperties
      allStemWithin_nil

theorem yields_fragmentElement :
    Yields (fragmentElement context node drafts) (Stems context root node.start node.stop) := by
  unfold fragmentElement
  refine yields_demand.bind fun start _ => yields_demand.bind fun stop _ => ?_
  exact (yields_jsxChildren hplaced hnode h).map fun arguments harguments =>
    stems_factoryCall hplaced hnode (stemsWithin_made hnode (hplaced node hnode.mem).le .fragment)
      (stemsWithin_fixed hplaced hnode (by decide)) harguments

theorem yields_contentElement :
    Yields (contentElement context drafts) (Stems context root node.start node.stop) := by
  unfold contentElement
  refine yields_demand.bind fun opening hopening => yields_demand.bind fun closing _ => ?_
  -- the tag and the properties come from the opening tag, which is a child of the element
  have hopening := h.orElse h (fun _ => List.mem_of_find?_eq_some) (fun _ => List.mem_of_head?) hopening
  refine (yields_jsxProperties hplaced hnode (hopening.children hplaced)).bind fun properties hproperties => ?_
  exact (yields_jsxChildren hplaced hnode h).map fun arguments harguments =>
    stems_factoryCall hplaced hnode (stemsWithin_jsxTag hplaced hnode hopening.part) hproperties harguments

theorem yields_jsxElement :
    Yields (jsxElement context node drafts) (Stems context root node.start node.stop) := by
  have hnote : Yields (modify fun state : State => { state with usesJsx := true }) fun _ => True :=
    ensures_modify (fun _ => rfl) fun _ => rfl
  unfold jsxElement
  refine hnote.bind fun _ _ => ?_
  split
  · exact yields_selfClosingElement hplaced hnode h
  · split
    · exact yields_fragmentElement hplaced hnode h
    · exact yields_contentElement hplaced hnode h

end Elements

end LivePreview.Lowering
