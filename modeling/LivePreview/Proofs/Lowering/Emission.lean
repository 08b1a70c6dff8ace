/-
  LivePreview.Proofs.Lowering.Emission
  ────────────────────────────────────
  **Every tree emits code that fits.**

  The text of a clause is put together from parts of the source, and the source of a
  statement that stays is a placeholder whose specifier has just been recorded.  The value of
  an enumeration member may be copied into the members behind it, with the placeholders in
  it; the copies fit because their specifiers stay (`NextValue.Fits`).  Whatever text comes
  out of an element, decoded or not, is written as a literal, which escapes NULs; the names
  that are written as they are come from the source and the options.

  So the rule for a node emits code that fits if the drafts of its children are proper
  (`ensures_emission`), and by induction over the tree the draft of every node is proper
  (`proper_draft`).
-/
import LivePreview.Lowering.Declaration
import LivePreview.Lowering.Emission
import LivePreview.Lowering.Jsx
import LivePreview.Lowering.Statement
import LivePreview.Proofs.Lowering.Emit

namespace LivePreview.Lowering

open LivePreview.Syntax (Node)

variable {context : Context} {count : Nat}

/-! ## §1. Clauses -/

theorem nulFree_braced {names : List String} (h : ∀ name ∈ names, NulFree name) :
    NulFree (braced names) := by
  unfold braced
  exact ((by decide : NulFree "\x7b ").append (nulFree_intercalate (by decide) h)).append (by decide)

theorem Context.IsClean.clauseParts (h : context.IsClean) (part : Node) :
    ∀ text ∈ clauseParts context part, NulFree text := by
  unfold Lowering.clauseParts
  intro text htext
  split at htext
  · rw [List.mem_singleton.mp htext]
    exact h.text part
  · split at htext
    · split at htext
      · cases htext
      · rw [List.mem_singleton.mp htext]
        refine nulFree_braced fun name hname => ?_
        obtain ⟨node, -, rfl⟩ := List.mem_map.mp hname
        exact h.text node
    · cases htext

theorem Context.IsClean.clauseText? (h : context.IsClean) {clause : Node} {text : String}
    (htext : clauseText? context clause = some text) : NulFree text := by
  unfold Lowering.clauseText? at htext
  split at htext
  · split at htext
    · cases htext
    · cases htext
      exact h.text clause
  · cases htext
    refine nulFree_intercalate (by decide) fun part hpart => ?_
    obtain ⟨node, -, hnode⟩ := List.mem_flatMap.mp hpart
    exact h.clauseParts node part hnode

theorem Context.IsClean.exportClauseText? (h : context.IsClean) {clause : Node} {text : String}
    (htext : exportClauseText? context clause = some text) : NulFree text := by
  unfold Lowering.exportClauseText? at htext
  dsimp only at htext
  split at htext
  · split at htext
    · cases htext
      exact h.text clause
    · cases htext
  · cases htext
    refine nulFree_braced fun name hname => ?_
    obtain ⟨node, -, rfl⟩ := List.mem_map.mp hname
    exact h.text node

/-! ## §2. Statements -/

theorem emitting_replaceClause {kind text : String} {children : List Draft}
    (h : Draft.Emitting context count children) (htext : context.IsClean → NulFree text) :
    Draft.Emitting context count (replaceClause kind text children) :=
  h.replaceFirst fun _ _ => ensures_pure fun _ _ => Code.fits_ofText htext

theorem emitting_replaceSource {literal : Code} {children : List Draft}
    (h : Draft.Emitting context count children) (hliteral : literal.Fits context count) :
    Draft.Emitting context count (replaceSource literal children) :=
  h.replaceFirst fun _ _ => ensures_pure fun _ hk => hliteral.mono hk

theorem Draft.Emitting.mono {drafts : List Draft} (h : Draft.Emitting context count drafts) {k : Nat}
    (hk : count ≤ k) : Draft.Emitting context k drafts :=
  fun draft hdraft => (h draft hdraft).mono hk

theorem ensures_keptImport {node : Node} {children : List Draft}
    (h : Draft.Emitting context count children) :
    Ensures count (keptImport context node children) (Code.Fits context) := by
  unfold keptImport
  refine ensures_demand.bind fun k source hk _ => ?_
  refine (ensures_recordImport context).bind fun l literal hl hliteral => ?_
  exact Draft.ensures_assemble (emitting_replaceSource (h.mono (Nat.le_trans hk hl)) hliteral)

theorem ensures_noteReact {clause : Node} :
    Ensures count (noteReact context clause) fun _ _ => True :=
  ensures_modify (fun _ => rfl) fun _ => rfl

theorem ensures_importStatement {node : Node} {children : List Draft}
    (h : Draft.Emitting context count children) :
    Ensures count (importStatement context node children) (Code.Fits context) := by
  unfold importStatement
  dsimp only
  split
  · exact ensures_pure fun _ _ => Code.fits_nil
  · split
    · exact ensures_reject.bind fun _ _ _ (hfalse : False) => hfalse.elim
    · split
      · exact ensures_keptImport h
      · next clause _ =>
        refine ensures_noteReact.bind fun k _ hk _ => ?_
        split
        · exact ensures_pure fun _ _ => Code.fits_nil
        · next text htext =>
          exact ensures_keptImport
            (emitting_replaceClause (h.mono hk) fun hclean => hclean.clauseText? htext)

theorem ensures_keptExport {node : Node} {children : List Draft}
    (h : Draft.Emitting context count children) :
    Ensures count (keptExport context node children) (Code.Fits context) := by
  unfold keptExport
  split
  · exact Draft.ensures_assemble h
  · refine (ensures_recordImport context).bind fun k literal hk hliteral => ?_
    exact Draft.ensures_assemble (emitting_replaceSource (h.mono hk) hliteral)

theorem ensures_exportStatement {node : Node} {children : List Draft}
    (h : Draft.Emitting context count children) :
    Ensures count (exportStatement context node children) (Code.Fits context) := by
  unfold exportStatement
  dsimp only
  split
  · exact ensures_pure fun _ _ => Code.fits_nil
  · split
    · exact ensures_reject.bind fun _ _ _ (hfalse : False) => hfalse.elim
    · split
      · exact ensures_keptExport h
      · next clause _ =>
        split
        · exact ensures_pure fun _ _ => Code.fits_nil
        · next text htext =>
          exact ensures_keptExport
            (emitting_replaceClause h fun hclean => hclean.exportClauseText? htext)

/-! ## §3. Calls -/

/-- The placeholder of an imported literal comes two levels down, among the arguments. -/
theorem ensures_callExpression {node : Node} {children : List Draft}
    (h : Draft.AllProper context count children) :
    Ensures count (callExpression context node children) (Code.Fits context) := by
  unfold callExpression
  split
  · exact Draft.ensures_assemble h.emitting
  · refine (ensures_recordImport context).bind fun k literal hk hliteral => ?_
    have h := h.mono hk
    refine Draft.ensures_assemble (h.emitting.replaceFirst fun arguments harguments => ?_)
    have hchildren : Draft.AllProper context k arguments.children := (h arguments harguments).children
    exact Draft.ensures_assemble
      (hchildren.emitting.replaceFirst fun _ _ => ensures_pure fun _ hl => hliteral.mono hl)

/-! ## §4. Constructors -/

theorem Context.IsClean.parameterProperties (h : context.IsClean) (method : Node) :
    ∀ name ∈ parameterProperties context method, NulFree name := by
  unfold Lowering.parameterProperties
  intro name hname
  split at hname
  · cases hname
  · obtain ⟨parameter, -, hparameter⟩ := List.mem_filterMap.mp hname
    unfold parameterProperty? at hparameter
    obtain ⟨pattern, -, hpattern⟩ := Option.bind_eq_some_iff.mp hparameter
    split at hpattern
    · cases hpattern
      exact h.text pattern
    · cases hpattern

theorem nulFree_assignments {names : List String} (h : ∀ name ∈ names, NulFree name) :
    NulFree (assignments names) := by
  unfold assignments
  refine nulFree_join fun text htext => ?_
  obtain ⟨name, hname, rfl⟩ := List.mem_map.mp htext
  have hfree := h name hname
  exact ((((by decide : NulFree " this.").append hfree).append (by decide)).append hfree).append
    (by decide)

theorem ensures_constructorBody {added : String} (hadded : context.IsClean → NulFree added)
    {body : Draft} (h : body.Proper context count) :
    Ensures count (constructorBody context added body) (Code.Fits context) := by
  have hchildren : Draft.AllProper context count body.children := h.children
  unfold constructorBody
  refine Draft.ensures_assemble ?_
  split
  · refine hchildren.emitting.replaceFirst fun call hcall => ?_
    refine (hchildren call hcall).emission.bind fun k code _ hcode => ensures_pure fun l hl => ?_
    exact (hcode.mono hl).append (Code.fits_ofText hadded)
  · refine hchildren.emitting.replaceEach fun _ _ => ensures_pure fun _ _ => ?_
    exact Code.fits_ofText fun hclean => (by decide : NulFree "\x7b").append (hadded hclean)

theorem ensures_methodDefinition {node : Node} {children : List Draft}
    (h : Draft.AllProper context count children) :
    Ensures count (methodDefinition context node children) (Code.Fits context) := by
  unfold methodDefinition
  dsimp only
  split
  · refine Draft.ensures_assemble (h.emitting.replaceFirst fun body hbody => ?_)
    exact ensures_constructorBody
      (fun hclean => nulFree_assignments (hclean.parameterProperties node)) (h body hbody)
  · exact Draft.ensures_dropTokens h.emitting

/-! ## §5. Enumerations -/

/-- What a member without initialiser takes emits code that fits. -/
def NextValue.Fits (context : Context) (count : Nat) : NextValue → Prop
  | .numeral text => NulFree text
  | .value code => code.Fits context count
  | .unknown => True

theorem NextValue.Fits.mono {next : NextValue} (h : next.Fits context count) {k : Nat}
    (hk : count ≤ k) : next.Fits context k := by
  cases next with
  | numeral text => exact h
  | value code => exact Code.Fits.mono h hk
  | unknown => trivial

theorem fits_sumOf {value : Code} (h : value.Fits context count) :
    (sumOf value).Fits context count :=
  ((Code.fits_ofText_of_nulFree (by decide)).append h).append (Code.fits_ofText_of_nulFree (by decide))

theorem NextValue.fits_afterNumeral {text : String} {next : NextValue}
    (hok : NextValue.afterNumeral text = .ok next) : next.Fits context count := by
  unfold NextValue.afterNumeral at hok
  cases hsuccessor : successor? text with
  | error failure =>
    rw [hsuccessor] at hok
    cases hok
  | ok digits? =>
    rw [hsuccessor] at hok
    cases digits? with
    | none =>
      cases hok
      trivial
    | some digits =>
      cases hok
      exact nulFree_successor? hsuccessor

theorem fits_nextAfter {initializer : Node} {value : Code} (hvalue : value.Fits context count)
    {next : NextValue} (hok : nextAfter context initializer value = .ok next) :
    next.Fits context count := by
  unfold nextAfter at hok
  split at hok
  · exact NextValue.fits_afterNumeral hok
  · split at hok
    · cases hok
      trivial
    · cases hok
      exact fits_sumOf hvalue

/-- The value that is taken fits, and so does the one behind it. -/
theorem NextValue.Fits.take? {next following : NextValue} (h : next.Fits context count)
    {value : Code} (hok : next.take? = .ok (some (value, following))) :
    value.Fits context count ∧ following.Fits context count := by
  cases next with
  | unknown => cases hok
  | value code =>
    cases hok
    exact ⟨h, fits_sumOf h⟩
  | numeral text =>
    have htext : (Code.ofText text).Fits context count := Code.fits_ofText_of_nulFree h
    unfold NextValue.take? at hok
    dsimp only at hok
    split at hok
    · -- a numeral is counted on, if it is one that can be
      cases hafter : NextValue.afterNumeral text with
      | error failure =>
        rw [hafter] at hok
        cases hok
      | ok after =>
        rw [hafter] at hok
        cases hok
        exact ⟨htext, NextValue.fits_afterNumeral hafter⟩
    · cases hok
      exact ⟨htext, fits_sumOf htext⟩

theorem fits_memberField {key : Node} {value : Code} (h : value.Fits context count) :
    (memberField context key value).Fits context count :=
  (Code.fits_ofText fun hclean => (hclean.text key).append (by decide)).append h

/-- The fields fit, whatever the value of the first member is. -/
theorem ensures_enumFields {next : NextValue} {members : List Draft}
    (hnext : next.Fits context count) (h : Draft.AllProper context count members) :
    Ensures count (enumFields context next members) (Code.AllFit context) := by
  induction members generalizing count next with
  | nil => exact ensures_pure fun _ _ _ hcode => absurd hcode List.not_mem_nil
  | cons member members ih =>
    obtain ⟨hmember, hrest⟩ := List.forall_mem_cons.mp h
    have hchildren : Draft.AllProper context count member.children := hmember.children
    unfold enumFields
    split
    · -- a member with an initializer of its own
      refine ensures_demand.bind fun k key hk _ => ?_
      refine ensures_demand.bind fun l initializer hl hinitializer => ?_
      have hproper : initializer.Proper context l := by
        have hmem : initializer ∈ member.children := by
          rcases Draft.eq_some_or_of_orElse hinitializer with hfield | hlast
          · exact List.mem_of_find?_eq_some hfield
          · exact (List.mem_filter.mp (List.mem_of_getLast? hlast)).1
        exact (hchildren initializer hmem).mono (Nat.le_trans hk hl)
      refine hproper.emission.bind fun m value hm hvalue => ?_
      refine ensures_lift.bind fun n following hn hfollowing => ?_
      have hkn : count ≤ n := by omega
      have hrest : Draft.AllProper context n members := fun d hd => (hrest d hd).mono hkn
      refine (ih (fits_nextAfter (hvalue.mono hn) hfollowing) hrest).bind
        fun o fields ho hfields => ensures_pure fun p hp => ?_
      exact Code.AllFit.cons (fits_memberField (hvalue.mono (by omega))) (hfields.mono hp)
    · split
      · -- a member that takes the next value
        refine ensures_lift.bind fun k taken hk htaken => ?_
        have hrest : Draft.AllProper context k members := fun d hd => (hrest d hd).mono hk
        split
        · exact ensures_reject
        · next value following =>
          obtain ⟨hvalue, hfollowing⟩ := hnext.take? htaken
          refine (ih (hfollowing.mono hk) hrest).bind fun l fields hl hfields => ensures_pure fun m hm => ?_
          exact Code.AllFit.cons (fits_memberField (hvalue.mono (by omega))) (hfields.mono hm)
      · exact ih hnext hrest

theorem ensures_enumDeclaration {node : Node} {children : List Draft}
    (h : Draft.AllProper context count children) :
    Ensures count (enumDeclaration context node children) (Code.Fits context) := by
  have hmembers : Draft.AllProper context count
      (((Draft.byField? "body" children).map fun body => Draft.named body.children).getD []) := by
    cases hbody : Draft.byField? "body" children with
    | none => exact fun _ hmem => absurd hmem List.not_mem_nil
    | some body =>
      have hchildren : Draft.AllProper context count body.children := (h.byField? hbody).children
      exact hchildren.named
  unfold enumDeclaration
  dsimp only
  have hzero : (NextValue.numeral "0").Fits context count := (by decide : NulFree "0")
  refine (ensures_enumFields hzero hmembers).bind fun k fields _ hfields => ?_
  refine ensures_demand.bind fun l name hl _ => ensures_pure fun m hm => ?_
  have hname : (Code.ofText ("const " ++ context.text name ++ " = Object.freeze(\x7b ")).Fits context m :=
    Code.fits_ofText fun hclean =>
      ((by decide : NulFree "const ").append (hclean.text name)).append (by decide)
  have hjoined := Code.fits_joinWith (by decide : NulFree ", ") (hfields.mono (Nat.le_trans hl hm))
  exact (hname.append hjoined).append (Code.fits_ofText_of_nulFree (by decide))

/-! ## §6. Tags and properties -/

theorem Context.IsClean.jsxTag (h : context.IsClean) (element : Node) :
    NulFree (jsxTag context element) := by
  unfold Lowering.jsxTag
  split
  · exact h.fragment
  · dsimp only
    split
    · exact nulFree_literal _
    · exact h.text _

theorem ensures_decodable {α : Type} {result : Except Text.CharacterReference.Overlong α} :
    Ensures count (decodable result) fun _ _ => True := by
  cases result with
  | ok a => exact ensures_pure fun _ _ => trivial
  | error overlong => exact ensures_throw

theorem fits_literal (text : Text) : (Code.ofText (Json.literal text)).Fits context count :=
  Code.fits_ofText_of_nulFree (nulFree_literal text)

theorem ensures_bracedExpression {children : List Draft} (h : Draft.AllProper context count children)
    {expression : Draft} (hexpression : bracedExpression? children = some expression) :
    Ensures count expression.emission (Code.Fits context) :=
  (h.named expression (List.mem_of_find?_eq_some hexpression)).emission

theorem ensures_attributeValue {value : Draft} (h : value.Proper context count) :
    Ensures count (attributeValue context value) (Code.Fits context) := by
  unfold attributeValue
  split
  · exact ensures_decodable.bind fun k text _ _ => ensures_pure fun _ _ => fits_literal _
  · split
    · split
      · next expression hexpression => exact ensures_bracedExpression h.children hexpression
      · exact ensures_pure fun _ _ => Code.fits_ofText_of_nulFree (by decide)
    · exact h.emission

theorem ensures_jsxAttribute {given : Draft} (h : given.Proper context count) :
    Ensures count (jsxAttribute context given) (Code.Fits context) := by
  have hparts : Draft.AllProper context count (Draft.named given.children) :=
    Draft.AllProper.named h.children
  -- a key that cannot stand as it is becomes a literal
  have hkey : ∀ text : String, (context.IsClean → NulFree text) → context.IsClean →
      NulFree (if isPlainKey text then text else Json.literal text) := by
    intro text htext hclean
    split
    · exact htext hclean
    · exact nulFree_literal _
  unfold jsxAttribute
  dsimp only
  refine ensures_demand.bind fun k name hk _ => ?_
  have hname := hkey (context.text name.node) fun hclean => hclean.text name.node
  split
  · exact ensures_pure fun _ _ => Code.fits_ofText fun hclean => (hname hclean).append (by decide)
  · next value hvalue =>
    have hproper := (hparts value (List.mem_of_getElem? hvalue)).mono hk
    refine (ensures_attributeValue hproper).bind fun l code _ hcode => ensures_pure fun m hm => ?_
    exact (Code.fits_ofText fun hclean => (hname hclean).append (by decide)).append (hcode.mono hm)

theorem ensures_jsxProperty {part : Draft} (h : part.Proper context count) :
    Ensures count (jsxProperty context part) (Code.AllFit context) := by
  unfold jsxProperty
  split
  · exact (ensures_jsxAttribute h).singleton
  · split
    · split
      · next spread hspread =>
        have hchildren : Draft.AllProper context count part.children := h.children
        have hproper := hchildren.named spread (List.mem_of_find?_eq_some hspread)
        exact hproper.emission.singleton
      · exact ensures_pure fun _ _ => Code.allFit_nil
    · exact ensures_pure fun _ _ => Code.allFit_nil

theorem ensures_jsxPropertyList {parts : List Draft} (h : Draft.AllProper context count parts) :
    Ensures count (jsxPropertyList context parts) (Code.AllFit context) := by
  induction parts generalizing count with
  | nil => exact ensures_pure fun _ _ => Code.allFit_nil
  | cons part parts ih =>
    obtain ⟨hpart, hrest⟩ := List.forall_mem_cons.mp h
    unfold jsxPropertyList
    refine (ensures_jsxProperty hpart).bind fun k first hk hfirst => ?_
    refine (ih fun d hd => (hrest d hd).mono hk).bind fun l rest hl hrest => ensures_pure fun m hm => ?_
    exact (hfirst.mono (Nat.le_trans hl hm)).append (hrest.mono hm)

theorem ensures_jsxProperties {parts : List Draft} (h : Draft.AllProper context count parts) :
    Ensures count (jsxProperties context parts) (Code.Fits context) := by
  unfold jsxProperties
  refine (ensures_jsxPropertyList h.named).bind fun k properties _ hproperties => ?_
  split
  · exact ensures_pure fun _ _ => Code.fits_ofText_of_nulFree (by decide)
  · refine ensures_pure fun l hl => ?_
    exact ((Code.fits_ofText_of_nulFree (by decide)).append
      (Code.fits_joinWith (by decide) (hproperties.mono hl))).append
        (Code.fits_ofText_of_nulFree (by decide))

/-! ## §7. Children -/

theorem ensures_runArguments (context : Context) {run : String} :
    Ensures count (runArguments run) (Code.AllFit context) := by
  unfold runArguments
  refine ensures_decodable.bind fun k text _ _ => ensures_pure fun l _ => ?_
  split
  · exact Code.allFit_nil
  · exact Code.allFit_singleton (fits_literal _)

theorem ensures_jsxChild {child : Draft} (h : child.Proper context count) :
    Ensures count (jsxChild child) (Code.AllFit context) := by
  unfold jsxChild
  split
  · exact ensures_pure fun _ _ => Code.allFit_nil
  · split
    · split
      · next expression hexpression =>
        exact (ensures_bracedExpression h.children hexpression).singleton
      · exact ensures_pure fun _ _ => Code.allFit_nil
    · exact h.emission.singleton

theorem ensures_jsxArguments {stop position : Nat} {children : List Draft}
    (h : Draft.AllProper context count children) :
    Ensures count (jsxArguments context stop position children) (Code.AllFit context) := by
  induction children generalizing count position with
  | nil => exact ensures_runArguments context
  | cons child children ih =>
    obtain ⟨hchild, hrest⟩ := List.forall_mem_cons.mp h
    unfold jsxArguments
    refine (ensures_runArguments context).bind fun k run hk hrun => ?_
    refine (ensures_jsxChild (hchild.mono hk)).bind fun l own hl hown => ?_
    refine (ih fun d hd => (hrest d hd).mono (Nat.le_trans hk hl)).bind
      fun m rest hm hrest => ensures_pure fun n hn => ?_
    exact ((hrun.mono (by omega)).append (hown.mono (by omega))).append (hrest.mono hn)

theorem ensures_jsxChildren {start stop : Nat} {children : List Draft}
    (h : Draft.AllProper context count children) :
    Ensures count (jsxChildren context start stop children) (Code.AllFit context) :=
  ensures_jsxArguments (h.of_subset fun _ hdraft => (List.mem_filter.mp hdraft).1)

/-! ## §8. Elements -/

theorem fits_factoryCall {tag : String} {properties : Code} {children : List Code}
    (htag : context.IsClean → NulFree tag) (hproperties : properties.Fits context count)
    (hchildren : Code.AllFit context count children) :
    (factoryCall context tag properties children).Fits context count := by
  unfold factoryCall
  have hfactory : (Code.ofText (context.options.factory ++ "(")).Fits context count :=
    Code.fits_ofText fun hclean => hclean.factory.append (by decide)
  have hall : Code.AllFit context count (Code.ofText tag :: properties :: children) :=
    Code.AllFit.cons (Code.fits_ofText htag) (Code.AllFit.cons hproperties hchildren)
  exact (hfactory.append (Code.fits_joinWith (by decide) hall)).append
    (Code.fits_ofText_of_nulFree (by decide))

theorem ensures_selfClosingElement {node : Node} {children : List Draft}
    (h : Draft.AllProper context count children) :
    Ensures count (selfClosingElement context node children) (Code.Fits context) := by
  unfold selfClosingElement
  refine (ensures_jsxProperties h).bind fun k properties _ hproperties => ensures_pure fun l hl => ?_
  exact fits_factoryCall (fun hclean => hclean.jsxTag node) (hproperties.mono hl) Code.allFit_nil

theorem ensures_fragmentElement {node : Node} {children : List Draft}
    (h : Draft.AllProper context count children) :
    Ensures count (fragmentElement context node children) (Code.Fits context) := by
  unfold fragmentElement
  refine ensures_demand.bind fun k start hk _ => ensures_demand.bind fun l stop hl _ => ?_
  refine (ensures_jsxChildren (h.mono (Nat.le_trans hk hl))).bind
    fun m arguments _ harguments => ensures_pure fun n hn => ?_
  exact fits_factoryCall (fun hclean => hclean.fragment) (Code.fits_ofText_of_nulFree (by decide))
    (harguments.mono hn)

theorem ensures_contentElement {children : List Draft} (h : Draft.AllProper context count children) :
    Ensures count (contentElement context children) (Code.Fits context) := by
  unfold contentElement
  refine ensures_demand.bind fun k opening hk hopening => ensures_demand.bind fun l closing hl _ => ?_
  have hmem : opening ∈ children := by
    rcases Draft.eq_some_or_of_orElse hopening with hfield | hhead
    · exact List.mem_of_find?_eq_some hfield
    · exact List.mem_of_head? hhead
  have hparts : Draft.AllProper context l opening.children :=
    ((h opening hmem).mono (Nat.le_trans hk hl)).children
  refine (ensures_jsxProperties hparts).bind fun m properties hm hproperties => ?_
  refine (ensures_jsxChildren (h.mono (by omega))).bind
    fun n arguments hn harguments => ensures_pure fun o ho => ?_
  exact fits_factoryCall (fun hclean => hclean.jsxTag opening.node)
    (hproperties.mono (Nat.le_trans hn ho)) (harguments.mono ho)

theorem ensures_jsxElement {node : Node} {children : List Draft}
    (h : Draft.AllProper context count children) :
    Ensures count (jsxElement context node children) (Code.Fits context) := by
  have hnote : Ensures count (modify fun state : State => { state with usesJsx := true })
      fun _ _ => True := ensures_modify (fun _ => rfl) fun _ => rfl
  unfold jsxElement
  refine hnote.bind fun k _ hk _ => ?_
  have h := h.mono hk
  split
  · exact ensures_selfClosingElement h
  · split
    · exact ensures_fragmentElement h
    · exact ensures_contentElement h

/-! ## §9. The rule for a node -/

theorem ensures_emitDemanded {draft? : Option Draft}
    (h : ∀ draft, draft? = some draft → draft.Proper context count) :
    Ensures count (emitDemanded draft?) (Code.Fits context) := by
  unfold emitDemanded
  exact ensures_demand.bind fun k draft hk hdraft => ((h draft hdraft).mono hk).emission

theorem ensures_fieldDefinition {node : Node} {children : List Draft}
    (h : Draft.AllProper context count children) :
    Ensures count (fieldDefinition context node children) (Code.Fits context) := by
  unfold fieldDefinition
  split
  · exact ensures_pure fun _ _ => Code.fits_nil
  · exact Draft.ensures_dropTokens h.emitting

theorem ensures_constructEmission {node : Node} {children : List Draft}
    (h : Draft.AllProper context count children) :
    Ensures count (constructEmission context node children) (Code.Fits context) := by
  unfold constructEmission
  split
  · exact ensures_importStatement h.emitting
  · exact ensures_exportStatement h.emitting
  · exact ensures_callExpression h
  · exact ensures_emitDemanded fun draft hdraft => h.named draft (List.mem_of_getLast? hdraft)
  · exact Draft.ensures_dropTokens h.emitting
  · exact Draft.ensures_dropTokens h.emitting
  · exact ensures_fieldDefinition h
  · exact Draft.ensures_dropTokens h.emitting
  · exact ensures_reject
  · exact ensures_reject
  · exact ensures_methodDefinition h
  · exact ensures_enumDeclaration h
  · split
    · exact ensures_jsxElement h
    · exact Draft.ensures_assemble h.emitting

theorem ensures_emission {node : Node} {children : List Draft}
    (h : Draft.AllProper context count children) :
    Ensures count (emission context node children) (Code.Fits context) := by
  unfold emission
  split
  · exact ensures_pure fun _ _ => Code.fits_nil
  · split
    · exact ensures_emitDemanded fun draft hdraft => h.named draft (List.mem_of_head? hdraft)
    · split
      · exact ensures_pure fun _ _ => Code.fits_nil
      · exact ensures_constructEmission h

/-! ## §10. Trees -/

@[simp] theorem node_draft (context : Context) (node : Node) : (draft context node).node = node := by
  rw [draft_eq]

theorem hasField_draft (name : String) (node : Node) :
    Draft.hasField name (draft context node) = (node.field? == some name) := by
  rw [Draft.hasField, node_draft]

theorem isNamed_draft (node : Node) : (draft context node).isNamed = node.isNamed := by
  rw [Draft.isNamed, node_draft]

theorem kind_draft (node : Node) : (draft context node).kind = node.kind := by
  rw [Draft.kind, node_draft]

theorem isTokenAmong_draft (kinds : List String) (node : Node) :
    Draft.isTokenAmong kinds (draft context node) = (!node.isNamed && kinds.contains node.kind) := by
  rw [Draft.isTokenAmong, isNamed_draft, kind_draft]

theorem children_draft (context : Context) (node : Node) :
    (draft context node).children = node.children.map (draft context) := by
  rw [draft_eq]

theorem map_node_draft (context : Context) (nodes : List Node) :
    (nodes.map (draft context)).map Draft.node = nodes := by
  rw [List.map_map]
  exact List.map_id'' (node_draft context) nodes

/-- The drafts of constructs are those of the constructs among the nodes. -/
theorem named_map_draft (context : Context) (nodes : List Node) :
    Draft.named (nodes.map (draft context)) = (nodes.filter (·.isNamed)).map (draft context) := by
  have hnamed : Draft.isNamed ∘ draft context = Node.isNamed := by
    funext node
    rw [Function.comp_apply, Draft.isNamed, node_draft]
  unfold Draft.named
  rw [List.filter_map, hnamed]

theorem proper_draft (context : Context) (count : Nat) (node : Node) :
    (draft context node).Proper context count := by
  induction node using Syntax.Node.forall_of_children with
  | h node ih =>
    have hchildren : Draft.AllProper context count (node.children.map (draft context)) := by
      intro child hchild
      obtain ⟨original, horiginal, rfl⟩ := List.mem_map.mp hchild
      exact ih original horiginal
    rw [draft_eq]
    exact .intro hchildren (ensures_emission hchildren)

/-- Whatever the tree is, its code fits, and its specifiers are recorded. -/
theorem ensures_emit (context : Context) (node : Node) :
    Ensures 0 (emit context node) (Code.Fits context) :=
  (proper_draft context 0 node).emission

end LivePreview.Lowering
