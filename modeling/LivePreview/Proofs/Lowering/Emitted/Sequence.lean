/-
  LivePreview.Proofs.Lowering.Emitted.Sequence
  ────────────────────────────────────────────
  **Sequences in braces.**

  The arguments of a call and the properties of an object stand between commas.  What stands in
  the braces of an attribute or of a child is put there as it is emitted, and nothing is put
  around it.  A sequence has commas of its own, so that its operands become arguments of the
  call, or properties:

      source   <p>{a, b}</p>                           <p c={a, b}/>
      code     React.createElement("p", null, a, b)    React.createElement("p", { c: a, b })

  Which commas stand for themselves is read off the text by what they are enclosed in
  (`HasOuterComma`).  That of a sequence does, wherever the sequence is emitted
  (`lower_sequence`).
-/
import LivePreview.Proofs.Lowering.Emitted.Element

namespace LivePreview.Lowering

open LivePreview.Syntax (Node)

/-! ## §1. Commas -/

/-- What a character may be enclosed in. -/
inductive Enclosure where
  | bracket
  | quote (mark : Char)
  | template
  /-- The character behind a backslash. -/
  | escape
  /-- What stands behind a dollar sign in a template, and may be a bracket. -/
  | dollar
  deriving DecidableEq, Repr

namespace Enclosure

/-- What is left open behind a character, the innermost enclosure first. -/
def enter : List Enclosure → Char → List Enclosure
  | .quote mark :: outer, c =>
    if c == '\\' then .escape :: .quote mark :: outer
    else if c == mark then outer
    else .quote mark :: outer
  | .template :: outer, c =>
    if c == '\\' then .escape :: .template :: outer
    else if c == '`' then outer
    else if c == '$' then .dollar :: .template :: outer
    else .template :: outer
  | .escape :: outer, _ => outer
  | .dollar :: outer, c =>
    if c == '\x7b' then .bracket :: outer
    else if c == '$' then .dollar :: outer
    else if c == '\\' then .escape :: outer
    else if c == '`' then outer.tail
    else outer
  | outer, c =>
    if c == '(' || c == '[' || c == '\x7b' then .bracket :: outer
    else if c == ')' || c == ']' || c == '\x7d' then outer.tail
    else if c == '"' || c == '\'' then .quote c :: outer
    else if c == '`' then .template :: outer
    else outer

end Enclosure

/-- All that is opened in the text is closed in it. -/
def Closed (text : List Char) : Prop :=
  text.foldl Enclosure.enter [] = []

instance (text : List Char) : Decidable (Closed text) :=
  inferInstanceAs (Decidable (_ = _))

/-- There is a comma in the text outside all brackets, string literals and templates. -/
def HasOuterComma (text : List Char) : Prop :=
  ∃ front back, text = front ++ ',' :: back ∧ Closed front

/-- A comma in an argument, in a literal or in a template is enclosed; the one between them is not. -/
example : HasOuterComma "f(a, b), `\x24\x7bc, \"]\"\x7d,`".toList :=
  ⟨"f(a, b)".toList, _, rfl, by decide⟩

/-! ## §2. Braces in an element -/

section Braces

variable {context : Context} {braces sequence : Node} {before after : State}

/-- Where braces stand in an element: among its children, or behind the name of an attribute. -/
inductive Slot where
  | child
  | value (name : Node)

/-- The braces stand in the slot. -/
inductive Holds (head? : Option Node) (inner : List Node) (braces : Node) : Slot → Prop where
  | child (hchild : braces ∈ standalone inner) : Holds head? inner braces .child
  | value {head given name : Node} (hhead : head? = some head) (hgiven : given ∈ head.namedChildren)
    (hkind : given.kind = "jsx_attribute") (hname : given.namedChildren.head? = some name)
    (hvalue : given.namedChildren[1]? = some braces) : Holds head? inner braces (.value name)

/-- The name of an attribute as that of a property. -/
def propertyKey (context : Context) (name : Node) : String :=
  if isPlainKey (context.text name) then context.text name else Json.literal (context.text name)

/-- What a slot becomes in the call: the code is one of the arguments, or the value of a property. -/
inductive IsGiven (context : Context) (properties : Code) (arguments : List Code) (code : Code) : Slot → Prop where
  | child (hargument : code ∈ arguments) : IsGiven context properties arguments code .child
  | value {name : Node} {members : List Code}
    (hproperties : properties = Code.ofText "\x7b " ++ Code.joinWith ", " members ++ Code.ofText " \x7d")
    (hmember : Code.ofText (propertyKey context name ++ ": ") ++ code ∈ members) :
    IsGiven context properties arguments code (.value name)

/-- The expression in the braces of a child is an argument. -/
theorem Argued.exists_run {children : List Node} {runs : List String} {arguments : List Code}
    (h : Argued context before children runs arguments after) (hmem : braces ∈ children)
    (hkind : braces.kind = "jsx_expression") (hsequence : expressionIn? braces = some sequence) :
    ∃ start code stop, (emit context sequence).run start = .ok (code, stop) ∧ code ∈ arguments := by
  induction h with
  | last => exact absurd hmem List.not_mem_nil
  | @child _ _ _ _ text child _ _ own rest _ hown _ ih =>
    rcases List.mem_cons.mp hmem with rfl | hmem
    · have hparts : childParts braces = [sequence] := by
        unfold childParts
        rw [hkind, if_neg (by decide), if_pos (by decide), hsequence]
        rfl
      rw [hparts] at hown
      obtain ⟨code, hrun, rfl⟩ := chain_singleton_iff.mp hown
      exact ⟨_, code, _, hrun, List.mem_append_left _ (List.mem_append_right _ (List.mem_singleton_self code))⟩
    · obtain ⟨start, code, stop, hrun, hcode⟩ := ih hmem
      exact ⟨start, code, stop, hrun, List.mem_append_right _ hcode⟩

/-- The expression in the braces of an attribute is the value of its property. -/
theorem value_of_run_jsxAttribute {given name : Node} {code : Code}
    (hname : given.namedChildren.head? = some name) (hvalue : given.namedChildren[1]? = some braces)
    (hkind : braces.kind = "jsx_expression") (hsequence : expressionIn? braces = some sequence)
    (hrun : (jsxAttribute context (draft context given)).run before = .ok (code, after)) :
    ∃ own, (emit context sequence).run before = .ok (own, after) ∧
      code = Code.ofText (propertyKey context name ++ ": ") ++ own := by
  have hemit : attributeValue context (draft context braces) = emit context sequence := by
    unfold attributeValue
    rw [kind_draft, hkind, bracedExpression?_draft, hsequence]
    rfl
  unfold jsxAttribute at hrun
  dsimp only at hrun
  rw [named_children_draft, List.head?_map, hname, List.getElem?_map, hvalue] at hrun
  change (do
    let own ← attributeValue context (draft context braces)
    return Code.ofText (_ ++ ": ") ++ own : Emit Code).run before = _ at hrun
  rw [hemit, StateT.run_bind] at hrun
  obtain ⟨⟨own, last⟩, hown, hdone⟩ := Result.bind_eq_ok_iff.mp hrun
  cases hdone
  exact ⟨own, hown, by rw [node_draft]; rfl⟩

/-- Each attribute of a tag has a property. -/
theorem exists_run_jsxAttribute {parts : List Node} {given : Node} {properties : List Code}
    (hmem : given ∈ parts) (hkind : given.kind = "jsx_attribute")
    (hrun : (jsxPropertyList context (parts.map (draft context))).run before = .ok (properties, after)) :
    ∃ start code stop, (jsxAttribute context (draft context given)).run start = .ok (code, stop) ∧
      code ∈ properties := by
  induction parts generalizing before properties with
  | nil => exact absurd hmem List.not_mem_nil
  | cons part parts ih =>
    rw [List.map_cons, jsxPropertyList, StateT.run_bind] at hrun
    obtain ⟨⟨first, between⟩, hfirst, hrun⟩ := Result.bind_eq_ok_iff.mp hrun
    rw [StateT.run_bind] at hrun
    obtain ⟨⟨rest, last⟩, hrest, hdone⟩ := Result.bind_eq_ok_iff.mp hrun
    cases hdone
    rcases List.mem_cons.mp hmem with rfl | hmem
    · unfold jsxProperty at hfirst
      rw [kind_draft, hkind, if_pos (by decide), StateT.run_bind] at hfirst
      obtain ⟨⟨code, stop⟩, hcode, hdone⟩ := Result.bind_eq_ok_iff.mp hfirst
      cases hdone
      exact ⟨before, code, stop, hcode, List.mem_append_left _ (List.mem_singleton_self code)⟩
    · obtain ⟨start, code, stop, hcode, hin⟩ := ih hmem hrest
      exact ⟨start, code, stop, hcode, List.mem_append_right _ hin⟩

/-- **The expression in braces is given to the call of the element as it is emitted.** -/
theorem Holds.exists_run {head? : Option Node} {inner : List Node} {runs : List String} {between : State}
    {properties : Code} {arguments : List Code} {slot : Slot} (h : Holds head? inner braces slot)
    (hkind : braces.kind = "jsx_expression") (hsequence : expressionIn? braces = some sequence)
    (hproperties : (headProperties context head?).run before = .ok (properties, between))
    (harguments : Argued context between (standalone inner) runs arguments after) :
    ∃ start code stop, (emit context sequence).run start = .ok (code, stop) ∧
      IsGiven context properties arguments code slot := by
  cases h with
  | child hchild =>
    obtain ⟨start, code, stop, hrun, hcode⟩ := harguments.exists_run hchild hkind hsequence
    exact ⟨start, code, stop, hrun, .child hcode⟩
  | @value head given name hhead hgiven hattribute hname hvalue =>
    subst hhead
    change (jsxProperties context (head.children.map (draft context))).run before = _ at hproperties
    unfold jsxProperties at hproperties
    rw [named_map_draft, StateT.run_bind] at hproperties
    obtain ⟨⟨codes, last⟩, hcodes, hdone⟩ := Result.bind_eq_ok_iff.mp hproperties
    obtain ⟨start, property, stop, hproperty, hin⟩ := exists_run_jsxAttribute hgiven hattribute hcodes
    obtain ⟨own, hown, rfl⟩ := value_of_run_jsxAttribute hname hvalue hkind hsequence hproperty
    refine ⟨start, own, stop, hown, ?_⟩
    cases codes with
    | nil => exact absurd hin List.not_mem_nil
    | cons first codes =>
      cases hdone
      exact .value rfl hin

end Braces

/-! ## §3. Sequences -/

/-- A comma of a sequence, and the nodes in front of it. -/
structure HasComma (source : String) (sequence comma : Node) (front : List Node) : Prop where
  kind : sequence.kind = "sequence_expression"
  split : ∃ behind, sequence.children = front ++ comma :: behind
  token : comma.kind = ","
  leaf : comma.children = []
  text : comma.text source = ","

/-- What is emitted for nodes, with the source between two offsets around them, is closed. -/
def EmitsClosed (context : Context) (start stop : Nat) (nodes : List Node) : Prop :=
  ∀ before code after specifiers, (emitStretch context start stop nodes).run before = .ok (code, after) →
    Closed (Code.filled specifiers code)

section Sequences

variable {context : Context} {sequence comma : Node} {front : List Node}

/-- **A comma of a sequence stands in its code**, behind what is emitted for the nodes in front of it. -/
theorem HasComma.split_of_run (h : HasComma context.source sequence comma front) {before after : State}
    {code : Code} (hrun : (emit context sequence).run before = .ok (code, after)) :
    ∃ opening between closing,
      (emitStretch context sequence.start comma.start front).run before = .ok (opening, between) ∧
      code = opening ++ Code.ofText "," ++ closing := by
  obtain ⟨hkind, ⟨behind, hchildren⟩, htoken, hleaf, htext⟩ := h
  have hcomma : emit context comma = return Code.ofText "," := by
    rw [emit_leaf (isAssembled_of_kind htoken (by decide)) hleaf, Context.text, htext]
  rw [emit_of_isAssembled (isAssembled_of_kind hkind (by decide)) (by rw [hkind]; rfl) (by simp [hchildren]),
    hchildren, emitStretch_append, hcomma, StateT.run_bind] at hrun
  obtain ⟨⟨opening, between⟩, hopening, hrun⟩ := Result.bind_eq_ok_iff.mp hrun
  rw [pure_bind, StateT.run_bind] at hrun
  obtain ⟨⟨closing, last⟩, -, hdone⟩ := Result.bind_eq_ok_iff.mp hrun
  cases hdone
  exact ⟨opening, between, closing, hopening, rfl⟩

/-- If all that stands in front of it is closed, the comma is enclosed in nothing. -/
theorem HasComma.hasOuterComma (h : HasComma context.source sequence comma front)
    (hclosed : EmitsClosed context sequence.start comma.start front) {before after : State} {code : Code}
    (hrun : (emit context sequence).run before = .ok (code, after)) (specifiers : List Text) :
    HasOuterComma (Code.filled specifiers code) := by
  obtain ⟨opening, between, closing, hopening, rfl⟩ := h.split_of_run hrun
  refine ⟨Code.filled specifiers opening, Code.filled specifiers closing, ?_, hclosed _ _ _ specifiers hopening⟩
  rw [Code.filled_append, Code.filled_append, Code.filled_ofText, List.append_assoc]
  rfl

/-- Plain nodes are closed if the source is, where they stand. -/
theorem emitsClosed_of_isPlain {start stop : Nat} {nodes : List Node}
    (hstart : Node.IsBoundary context.source start) (hstop : Node.IsBoundary context.source stop)
    (hrow : Node.InRow stop start nodes)
    (hplaced : ∀ node ∈ nodes, ∀ inner ∈ node.preorder, inner.InPlace context.source)
    (hplain : ∀ node ∈ nodes, ∀ inner ∈ node.preorder, IsPlain context inner)
    (hclosed : Closed (Node.slice context.source start stop).toList) : EmitsClosed context start stop nodes := by
  intro before code after specifiers hrun
  rw [emitStretch_of_copied hstart hstop hrow (fun node hnode => hplaced node hnode node (Node.mem_preorder_self node))
    fun node hnode => emit_of_isPlain (hplaced node hnode) (hplain node hnode)] at hrun
  cases hrun
  rwa [Code.filled_ofText]

end Sequences

/-! ## §4. Lowered modules -/

section Lower

variable {parser : Parser} {dialect : Dialect} {options : Options} {source : String}
  {lowered : LoweredModule} {element braces sequence comma : Node} {head? : Option Node} {start stop : Nat}
  {inner front : List Node} {slot : Slot}

/-- **A sequence in braces is no single argument.**  In the module stands the call for an emitted element,
and what the braces of a child or an attribute hold is given to it as it is emitted.  If they hold a
sequence, each of its commas stands in that code, behind what is emitted for the nodes in front of it, and
it is outside all brackets, string literals and templates if these nodes leave none of them open. -/
theorem lower_sequence (hfactory : NulFree options.factory) (hfragment : NulFree options.fragment)
    (hok : lower parser dialect options source = .ok lowered)
    (hemits : Emits ⟨source, options⟩ (parser dialect source) element) (hplace : element.InPlace source)
    (hcontent : Content element head? start stop inner) (hholds : Holds head? inner braces slot)
    (hbraces : braces.kind = "jsx_expression") (hsequence : expressionIn? braces = some sequence)
    (hcomma : HasComma source sequence comma front) :
    ∃ properties arguments code specifiers opening closing,
      lowered.code.toList = opening ++ Code.filled specifiers
        (factoryCall ⟨source, options⟩ (headTag ⟨source, options⟩ head?) properties arguments) ++ closing ∧
      IsGiven ⟨source, options⟩ properties arguments code slot ∧
      (∃ before after lead between rest, (emit ⟨source, options⟩ sequence).run before = .ok (code, after) ∧
        (emitStretch ⟨source, options⟩ sequence.start comma.start front).run before = .ok (lead, between) ∧
        code = lead ++ Code.ofText "," ++ rest) ∧
      (EmitsClosed ⟨source, options⟩ sequence.start comma.start front →
        HasOuterComma (Code.filled specifiers code)) := by
  obtain ⟨_, properties, between, arguments, after, specifiers, opening, closing, hproperties, harguments, hcode⟩ :=
    hcontent.exists_call hfactory hfragment hok hemits hplace
  obtain ⟨before, code, last, hrun, hgiven⟩ := hholds.exists_run hbraces hsequence hproperties harguments
  obtain ⟨lead, reached, rest, hlead, hsplit⟩ := @HasComma.split_of_run ⟨source, options⟩ _ _ _ hcomma _ _ _ hrun
  exact ⟨properties, arguments, code, specifiers, opening, closing, hcode, hgiven,
    ⟨before, last, lead, reached, rest, hrun, hlead, hsplit⟩, fun hclosed => @HasComma.hasOuterComma ⟨source, options⟩ _ _ _ hcomma hclosed _ _ _ hrun specifiers⟩

end Lower

/-- The source of an element with a sequence as the value of its attribute. -/
def valueSource : String :=
  "<A b=\x7bf(\"x,\"),y\x7d/>"

/-- The call in `valueSource`. -/
def valueCall : Node :=
  ⟨"call_expression", true, false, 6, 13, none,
    [⟨"identifier", true, false, 6, 7, some "function", []⟩,
      ⟨"arguments", true, false, 7, 13, some "arguments",
        [tokenNode "(" 7 8, stringNode none 8 12, tokenNode ")" 12 13]⟩]⟩

/-- The sequence in `valueSource`. -/
def valueSequence : Node :=
  ⟨"sequence_expression", true, false, 6, 15, none,
    [valueCall, tokenNode "," 13 14, ⟨"identifier", true, false, 14, 15, none, []⟩]⟩

/-- A sequence in braces. -/
def bracedNode (sequence : Node) : Node :=
  ⟨"jsx_expression", true, false, sequence.start - 1, sequence.stop + 1, none,
    [tokenNode "\x7b" (sequence.start - 1) sequence.start, sequence,
      tokenNode "\x7d" sequence.stop (sequence.stop + 1)]⟩

/-- The attribute in `valueSource`. -/
def valueAttribute : Node :=
  ⟨"jsx_attribute", true, false, 3, 16, some "attribute",
    [⟨"property_identifier", true, false, 3, 4, none, []⟩, tokenNode "=" 4 5, bracedNode valueSequence]⟩

/-- The element in `valueSource`. -/
def valueElement : Node :=
  ⟨"jsx_self_closing_element", true, false, 0, 18, none,
    [tokenNode "<" 0 1, ⟨"identifier", true, false, 1, 2, some "name", []⟩, valueAttribute, tokenNode "/>" 16 18]⟩

/-- The tree of `valueSource`. -/
def valueTree : Node :=
  ⟨"program", true, false, 0, 18, none,
    [⟨"expression_statement", true, false, 0, 18, none, [valueElement]⟩]⟩

/-- The module that `valueSource` is lowered to. -/
def valueModule : LoweredModule :=
  ⟨"import React from \"react\";\nReact.createElement(A, \x7b b: f(\"x,\"),y \x7d)", ["react"],
    [⟨18, 25, "react"⟩], true⟩

theorem lower_valueTree : lower (fun _ _ => valueTree) .tsx {} valueSource = .ok valueModule := by
  unfold lower
  rw [String.contains_char_eq, if_neg (by decide)]
  decide +kernel

/-- The brackets and the literal of the call are closed in it. -/
theorem emitsClosed_valueCall : EmitsClosed ⟨valueSource, {}⟩ 6 13 [valueCall] := by
  have hplain : ∀ inner ∈ valueCall.preorder, IsPlain ⟨valueSource, {}⟩ inner := by
    intro inner hinner
    have hkinds : ∀ inner ∈ valueCall.preorder, inner.kind ∉ loweredKinds
          ++ ["readonly", "export_statement", "method_definition", "public_field_definition"] ∧
        droppedTokens inner.kind = [] ∧ (inner.kind = "call_expression" → importedLiteral? inner = none) := by
      decide +kernel
    obtain ⟨hplain, htokens, himports⟩ := hkinds inner hinner
    exact isPlain_of_unruled inner.kind rfl hplain htokens himports
  exact emitsClosed_of_isPlain (by decide +kernel) (by decide +kernel) (by decide +kernel)
    (List.forall_mem_singleton.mpr (by decide +kernel)) (List.forall_mem_singleton.mpr hplain) (by decide +kernel)

/-- The comma of the sequence is enclosed in nothing, unlike the one in the literal in front of it. -/
theorem lower_sequence_value :
    let context : Context := ⟨valueSource, {}⟩
    ∃ properties arguments code specifiers opening closing,
      valueModule.code.toList = opening ++ Code.filled specifiers
        (factoryCall context (jsxTag context valueElement) properties arguments) ++ closing ∧
      IsGiven context properties arguments code (.value ⟨"property_identifier", true, false, 3, 4, none, []⟩) ∧
      HasOuterComma (Code.filled specifiers code) := by
  intro context
  have hemits : Emits context valueTree valueElement :=
    .part (.part .self (List.mem_of_getElem? (i := 0) rfl)) (List.mem_of_getElem? (i := 0) rfl)
  have hcomma : HasComma valueSource valueSequence (tokenNode "," 13 14) [valueCall] :=
    ⟨rfl, ⟨_, rfl⟩, rfl, rfl, by decide +kernel⟩
  have hholds : Holds (some valueElement) [] (bracedNode valueSequence)
      (.value ⟨"property_identifier", true, false, 3, 4, none, []⟩) :=
    .value rfl (List.mem_of_getElem? (i := 1) rfl : valueAttribute ∈ _) rfl rfl rfl
  obtain ⟨properties, arguments, code, specifiers, opening, closing, hcode, hgiven, -, houter⟩ :=
    lower_sequence (by decide) (by decide) lower_valueTree hemits (by decide +kernel) (.closed rfl) hholds rfl rfl
      hcomma
  exact ⟨properties, arguments, code, specifiers, opening, closing, hcode, hgiven, houter emitsClosed_valueCall⟩

/-- The source of an element with a sequence as its child. -/
def childSource : String :=
  "<A>\x7ba, b\x7d</A>"

/-- The sequence in `childSource`. -/
def childSequence : Node :=
  ⟨"sequence_expression", true, false, 4, 8, none,
    [⟨"identifier", true, false, 4, 5, none, []⟩, tokenNode "," 5 6, ⟨"identifier", true, false, 7, 8, none, []⟩]⟩

/-- **A child that becomes two arguments.**  The sequence is the only child of the element, and its code has
a comma of its own in the call. -/
theorem lower_sequence_split :
    let context : Context := ⟨childSource, {}⟩
    let braces : Node := bracedNode childSequence
    Content (taggedElement [braces] 9) (some openingTag) 3 9 [braces] ∧
      Emits context (taggedProgram [braces] 9) (taggedElement [braces] 9) ∧
      Holds (some openingTag) [braces] braces .child ∧ expressionIn? braces = some childSequence ∧
      (emit context childSequence).run {} = .ok (Code.ofText "a, b", {}) ∧ HasOuterComma "a, b".toList ∧
      lower (fun _ _ => taggedProgram [braces] 9) .tsx {} childSource
        = .ok ⟨"import React from \"react\";\nReact.createElement(A, null, a, b)", ["react"],
          [⟨18, 25, "react"⟩], true⟩ := by
  intro context braces
  refine ⟨content_taggedElement (by decide), emits_taggedElement [braces] 9,
    .child (List.mem_filter.mpr ⟨List.mem_singleton_self braces, by decide⟩), rfl, by decide +kernel,
    ⟨['a'], _, rfl, by decide⟩, ?_⟩
  unfold lower
  rw [String.contains_char_eq, if_neg (by decide)]
  decide +kernel

end LivePreview.Lowering
