/-
  LivePreview.Proofs.Lowering.Erased.Rewriting
  ────────────────────────────────────────────
  **What a rule does not read makes no difference.**

  A constructor, an enumeration or an element is emitted alike over two sources if what it reads
  is the same, and if its parts are emitted alike.  So the same holds of every node
  (`same_of_readsAlike`).
-/
import LivePreview.Proofs.Lowering.Erased.Reading
import LivePreview.Proofs.Lowering.Types.Jsx

namespace LivePreview.Lowering

open LivePreview.Syntax (Node)

variable {context other : Context} {node : Node}

/-! ## §1. Constructors and enumerations -/

section Declarations

/-- The body of a constructor, into which the assignments are put. -/
theorem same_constructorBody (added : String) {body : Node} (hgaps : GapsAlike context other body)
    (hparts : ∀ part ∈ bodyParts body, Same context other part) :
    Agree (constructorBody context added (draft context body))
      (constructorBody other added (draft other body)) := by
  have htracks := tracks_map_draft context other body.children
  have hnodes := map_node_ofNode body.children
  unfold bodyParts at hparts
  unfold constructorBody
  rw [node_draft, node_draft, children_draft, children_draft]
  split
  · next hsuper =>
    rw [if_pos hsuper] at hparts
    refine (htracks.replaceFirst (q := Node.isNamed) (g := fun call => [call]) (fun _ => rfl) ?_).agree_assemble
      hgaps ((map_node_exchangeFirst _ _ _).trans hnodes) ?_
    · -- the call of the parent's constructor is emitted, and the text stands behind it
      refine List.forall_mem_map.mpr fun call _ => List.forall_mem_map.mpr fun call' _ hsame _ => ?_
      rw [node_draft, node_draft] at hsame
      cases hsame
      rw [node_draft]
      exact fun hcall => (hcall call (List.mem_singleton_self call)).bind fun _ => .refl _
    · rwa [Place.exchangeFirst_self, Place.partsOf_map_ofNode]
  · next hsuper =>
    rw [if_neg hsuper] at hparts
    refine (htracks.replaceEach (q := fun child => !child.isNamed && ["\x7b"].contains child.kind)
      fun _ => rfl).agree_assemble hgaps ((map_node_exchangeEach _ _ _).trans hnodes) ?_
    rwa [Place.partsOf_exchangeEach_nil]

theorem parameterProperty?_eq_of_texts {parameter : Node}
    (h : TextsAlike context other
      (((parameter.childByField? "pattern").filter (·.kind == "identifier")).toList)) :
    parameterProperty? context parameter = parameterProperty? other parameter := by
  unfold parameterProperty?
  cases hpattern : parameter.childByField? "pattern" with
  | none => rfl
  | some pattern =>
    rw [Option.bind_eq_bind, Option.bind_some, Option.bind_some]
    split
    · next hproperty =>
      have hidentifier := (Bool.and_eq_true_iff.mp hproperty).2
      rw [h.option (by rw [hpattern, Option.filter_some, if_pos hidentifier])]
    · rfl

theorem parameterProperties_eq_of_texts (h : TextsAlike context other (parameterNames node)) :
    parameterProperties context node = parameterProperties other node := by
  unfold parameterNames at h
  unfold parameterProperties
  cases hparameters : node.childByField? "parameters" with
  | none => rfl
  | some parameters =>
    rw [hparameters] at h
    refine List.filterMap_congr fun parameter hparameter => parameterProperty?_eq_of_texts fun name hname => ?_
    exact h name (List.mem_filterMap.mpr ⟨parameter, hparameter, Option.mem_toList.mp hname⟩)

theorem same_methodDefinition (hkind : node.kind = "method_definition")
    (hconstructor : isConstructor context node = isConstructor other node)
    (hgaps : GapsAlike context other node) (hopen : ∀ part ∈ openParts node, GapsAlike context other part)
    (htexts : TextsAlike context other (readNodes node))
    (hparts : ∀ part ∈ methodParts context node, Same context other part) :
    Agree (methodDefinition context node (node.children.map (draft context)))
      (methodDefinition other node (node.children.map (draft other))) := by
  have hread : readNodes node = parameterNames node := by
    unfold readNodes
    rw [hkind]
    rfl
  rw [hread] at htexts
  have hproperties := parameterProperties_eq_of_texts htexts
  have hassigns : assignsProperties context node = assignsProperties other node := by
    unfold assignsProperties
    rw [hproperties]
    exact congrArg (· && _ && _) hconstructor
  unfold methodParts at hparts
  show Agree (if assignsProperties context node = true then _ else _)
    (if assignsProperties other node = true then _ else _)
  rw [← hassigns, ← hproperties]
  split
  · next hassigning =>
    rw [if_pos hassigning] at hparts
    refine Tracks.agree_assemble ((tracks_map_draft context other node.children).replaceFirst (fun _ => rfl) ?_)
      hgaps ((map_node_exchangeFirst _ _ _).trans (map_node_ofNode _)) hparts
    refine List.forall_mem_map.mpr fun body hmem => List.forall_mem_map.mpr fun body' _ hsame hfield => ?_
    rw [node_draft, node_draft] at hsame
    cases hsame
    rw [node_draft] at hfield ⊢
    refine fun hinner => same_constructorBody _ (hopen body ?_) hinner
    unfold openParts
    rw [hkind]
    exact List.mem_append_right _ (List.mem_filter.mpr ⟨hmem, hfield⟩)
  · next hassigning =>
    rw [if_neg hassigning] at hparts
    unfold keptChildren at hparts
    rw [hkind] at hparts
    exact same_dropTokens hgaps hparts

theorem nextAfter_eq_of_text {initializer : Node} (value : Code)
    (h : initializer.kind = "number" → context.text initializer = other.text initializer) :
    nextAfter context initializer value = nextAfter other initializer value := by
  unfold nextAfter
  split
  · next hnumber => rw [h (eq_of_beq hnumber)]
  · rfl

theorem memberField_eq {key : Node} (h : context.text key = other.text key) (value : Code) :
    memberField context key value = memberField other key value := by
  unfold memberField
  rw [h]

theorem same_enumFields (next : NextValue) {members : List Node}
    (htexts : TextsAlike context other (members.flatMap memberNodes))
    (hparts : ∀ part ∈ members.filterMap initializer?, Same context other part) :
    Agree (enumFields context next (members.map (draft context)))
      (enumFields other next (members.map (draft other))) := by
  -- by induction on the members, of which each is emitted by one of three rules
  induction members generalizing next with
  | nil =>
    rw [List.map_nil, List.map_nil, enumFields, enumFields]
    exact .refl _
  | cons member members ih =>
    rw [List.flatMap_cons] at htexts
    have hmember := htexts.mono (List.subset_append_left _ _)
    have hrest := htexts.mono (List.subset_append_right _ _)
    unfold memberNodes at hmember
    by_cases hkind : member.kind = "enum_assignment"
    · rw [if_pos (beq_iff_eq.mpr hkind)] at hmember
      rw [enumFields_assignment next hkind, enumFields_assignment next hkind]
      refine same_demand fun key hkey => same_demand fun initializer hinitializer => ?_
      rw [List.filterMap_cons_some hinitializer] at hparts
      obtain ⟨hvalue, hparts⟩ := List.forall_mem_cons.mp hparts
      have hnumber : initializer.kind = "number" → context.text initializer = other.text initializer :=
        fun hnumber => hmember initializer (List.mem_append_right _
          (List.mem_filter.mpr ⟨Option.mem_toList.mpr hinitializer, beq_iff_eq.mpr hnumber⟩))
      have htext : context.text key = other.text key :=
        hmember key (List.mem_append_left _ (Option.mem_toList.mpr hkey))
      refine hvalue.bind fun code => ?_
      rw [nextAfter_eq_of_text code hnumber, memberField_eq htext]
      exact .then _ fun following => (ih following hrest hparts).bind fun _ => .refl _
    · rw [if_neg (by rwa [beq_iff_eq])] at hmember
      rw [List.filterMap_cons_none (initializer?_of_ne hkind)] at hparts
      by_cases hbare : isBare member = true
      · rw [if_pos hbare] at hmember
        rw [enumFields_bare next hbare, enumFields_bare next hbare]
        refine .then _ fun taken => ?_
        cases taken with
        | none => exact agree_reject
        | some taken =>
          rw [Option.elim_some, Option.elim_some, memberField_eq (hmember member (List.mem_singleton_self member))]
          exact (ih taken.2 hrest hparts).bind fun _ => .refl _
      · have hbare := (Bool.not_eq_true _).mp hbare
        rw [enumFields_other next hkind hbare, enumFields_other next hkind hbare]
        exact ih next hrest hparts

theorem same_enumDeclaration (hkind : node.kind = "enum_declaration")
    (htexts : TextsAlike context other (readNodes node))
    (hparts : ∀ part ∈ (enumMembers node).filterMap initializer?, Same context other part) :
    Agree (enumDeclaration context node (node.children.map (draft context)))
      (enumDeclaration other node (node.children.map (draft other))) := by
  have hread : readNodes node = (node.childByField? "name").toList ++ (enumMembers node).flatMap memberNodes := by
    unfold readNodes
    rw [hkind]
    rfl
  have hemits : ∀ sources : Context,
      enumDeclaration sources node (node.children.map (draft sources)) = emit sources node := by
    intro sources
    rw [emit_eq, emission_of_construct hkind (by decide), constructEmission, hkind]
    rfl
  rw [hread] at htexts
  rw [hemits, hemits, emit_enumDeclaration hkind, emit_enumDeclaration hkind]
  refine (same_enumFields _ (htexts.mono (List.subset_append_right _ _)) hparts).bind fun fields => ?_
  refine same_demand fun name hname => ?_
  rw [(htexts.mono (List.subset_append_left _ _)).option hname]
  exact .refl _

end Declarations

/-! ## §2. Elements -/

section Elements

theorem same_attributeValue {value : Node}
    (htext : (value.kind == "string" || value.kind == "jsx_string") = true → context.text value = other.text value)
    (hparts : ∀ part ∈ valueParts value, Same context other part) :
    Agree (attributeValue context (draft context value)) (attributeValue other (draft other value)) := by
  unfold valueParts at hparts
  unfold attributeValue
  rw [kind_draft, kind_draft, node_draft, node_draft, bracedExpression?_draft, bracedExpression?_draft]
  split
  · next hstring =>
    unfold attributeText
    rw [htext hstring]
    exact .refl _
  · next hstring =>
    rw [if_neg hstring] at hparts
    split
    · next hbraces =>
      rw [if_pos hbraces] at hparts
      cases hexpression : expressionIn? value with
      | none => exact .refl _
      | some expression => exact hparts expression (Option.mem_toList.mpr hexpression)
    · next hbraces =>
      rw [if_neg hbraces] at hparts
      exact hparts value (List.mem_singleton_self value)

theorem same_jsxAttribute {given : Node}
    (htexts : TextsAlike context other (given.namedChildren.head?.toList
      ++ given.namedChildren[1]?.toList.filter fun value => value.kind == "string" || value.kind == "jsx_string"))
    (hparts : ∀ part ∈ (given.namedChildren[1]?.map valueParts).getD [], Same context other part) :
    Agree (jsxAttribute context (draft context given)) (jsxAttribute other (draft other given)) := by
  unfold jsxAttribute
  dsimp only
  rw [named_children_draft, named_children_draft, List.head?_map, List.head?_map, List.getElem?_map,
    List.getElem?_map, demand_map, demand_map]
  simp only [bind_assoc, pure_bind, node_draft]
  refine same_demand fun name hname => ?_
  rw [htexts name (List.mem_append_left _ (Option.mem_toList.mpr hname))]
  cases hvalue : given.namedChildren[1]? with
  | none => exact .refl _
  | some value =>
    rw [hvalue] at hparts
    refine (same_attributeValue (fun hstring => htexts value ?_) hparts).bind fun _ => .refl _
    exact List.mem_append_right _ (List.mem_filter.mpr ⟨Option.mem_toList.mpr hvalue, hstring⟩)

theorem same_jsxProperty {part : Node} (htexts : TextsAlike context other (attributeNodes part))
    (hparts : ∀ inner ∈ propertyParts part, Same context other inner) :
    Agree (jsxProperty context (draft context part)) (jsxProperty other (draft other part)) := by
  have hkind (context : Context) : (fun child : Draft => child.kind == "spread_element") ∘ draft context
      = (·.kind == "spread_element") := by
    funext child
    rw [Function.comp_apply, kind_draft]
  unfold attributeNodes at htexts
  unfold propertyParts at hparts
  unfold jsxProperty
  rw [kind_draft, kind_draft, named_children_draft, named_children_draft, List.find?_map, List.find?_map, hkind,
    hkind]
  split
  · next hattribute =>
    rw [if_pos hattribute] at htexts hparts
    exact (same_jsxAttribute htexts hparts).bind fun _ => .refl _
  · next hattribute =>
    rw [if_neg hattribute] at hparts
    split
    · next hbraces =>
      rw [if_pos hbraces] at hparts
      cases hspread : part.namedChildren.find? (·.kind == "spread_element") with
      | none => exact .refl _
      | some spread => exact (hparts spread (Option.mem_toList.mpr hspread)).bind fun _ => .refl _
    · exact .refl _

theorem same_jsxPropertyList {parts : List Node}
    (htexts : TextsAlike context other (parts.flatMap attributeNodes))
    (hparts : ∀ inner ∈ parts.flatMap propertyParts, Same context other inner) :
    Agree (jsxPropertyList context (parts.map (draft context)))
      (jsxPropertyList other (parts.map (draft other))) := by
  induction parts with
  | nil =>
    rw [List.map_nil, List.map_nil, jsxPropertyList, jsxPropertyList]
    exact .refl _
  | cons part parts ih =>
    rw [List.flatMap_cons] at htexts hparts
    unfold jsxPropertyList
    refine (same_jsxProperty (htexts.mono (List.subset_append_left _ _)) fun inner hinner =>
      hparts inner (List.mem_append_left _ hinner)).bind fun first => ?_
    exact (ih (htexts.mono (List.subset_append_right _ _)) fun inner hinner =>
      hparts inner (List.mem_append_right _ hinner)).bind fun _ => .refl _

/-- The properties in a tag. -/
theorem same_jsxProperties {tag : Node}
    (htexts : TextsAlike context other (tag.namedChildren.flatMap attributeNodes))
    (hparts : ∀ inner ∈ tag.namedChildren.flatMap propertyParts, Same context other inner) :
    Agree (jsxProperties context (tag.children.map (draft context)))
      (jsxProperties other (tag.children.map (draft other))) := by
  unfold jsxProperties
  rw [named_map_draft, named_map_draft]
  exact (same_jsxPropertyList htexts hparts).bind fun _ => .refl _

theorem same_jsxChild {child : Node} (hparts : ∀ part ∈ childParts child, Same context other part) :
    Agree (jsxChild (draft context child)) (jsxChild (draft other child)) := by
  unfold childParts at hparts
  unfold jsxChild
  rw [kind_draft, kind_draft, bracedExpression?_draft, bracedExpression?_draft]
  split
  · exact .refl _
  · next hcomment =>
    rw [if_neg hcomment] at hparts
    split
    · next hbraces =>
      rw [if_pos hbraces] at hparts
      cases hexpression : expressionIn? child with
      | none => exact .refl _
      | some expression => exact (hparts expression (Option.mem_toList.mpr hexpression)).bind fun _ => .refl _
    · next hbraces =>
      rw [if_neg hbraces] at hparts
      exact (hparts child (List.mem_singleton_self child)).bind fun _ => .refl _

/-- The runs between some children are the same in both sources. -/
def RunsAlike (context other : Context) (spans : List (Nat × Nat)) : Prop :=
  ∀ span ∈ spans, Node.slice context.source span.1 span.2 = Node.slice other.source span.1 span.2

theorem same_jsxArguments {stop position : Nat} {children : List Node}
    (hruns : RunsAlike context other (Node.spans stop position children))
    (hparts : ∀ part ∈ children.flatMap childParts, Same context other part) :
    Agree (jsxArguments context stop position (children.map (draft context)))
      (jsxArguments other stop position (children.map (draft other))) := by
  induction children generalizing position with
  | nil =>
    have hrun : Node.slice context.source position stop = Node.slice other.source position stop :=
      hruns (position, stop) (List.mem_singleton_self _)
    rw [List.map_nil, List.map_nil, jsxArguments, jsxArguments, hrun]
    exact .refl _
  | cons child children ih =>
    rw [List.flatMap_cons] at hparts
    obtain ⟨hrun, hruns⟩ := List.forall_mem_cons.mp hruns
    rw [List.map_cons, List.map_cons]
    unfold jsxArguments
    rw [node_draft, node_draft, hrun]
    -- the text in front of the child, the child, and what stands behind it
    refine .then _ fun run => ?_
    refine (same_jsxChild fun part hpart => hparts part (List.mem_append_left _ hpart)).bind fun own => ?_
    exact (ih hruns fun part hpart => hparts part (List.mem_append_right _ hpart)).bind fun _ => .refl _

theorem same_jsxChildren {start stop : Nat}
    (hruns : RunsAlike context other (Node.spans stop start (innerChildren start stop node)))
    (hparts : ∀ part ∈ contentParts start stop node, Same context other part) :
    Agree (jsxChildren context start stop (node.children.map (draft context)))
      (jsxChildren other start stop (node.children.map (draft other))) := by
  have hinner (context : Context) : isInnerChild start stop ∘ draft context = fun child => child.isNamed
      && start ≤ child.start && child.stop ≤ stop && child.kind != "jsx_text"
      && child.kind != "html_character_reference" := by
    funext child
    rw [Function.comp_apply, isInnerChild, isNamed_draft, node_draft, kind_draft]
  unfold jsxChildren
  rw [List.filter_map, List.filter_map, hinner, hinner]
  exact same_jsxArguments hruns hparts

theorem jsxTag_eq_of_texts (hoptions : context.options = other.options) {tag : Node}
    (htexts : TextsAlike context other (tag.childByField? "name").toList) :
    jsxTag context tag = jsxTag other tag := by
  unfold jsxTag
  cases hname : tag.childByField? "name" with
  | none => rw [hoptions]
  | some name =>
    dsimp only
    rw [htexts.option hname]

theorem same_selfClosingElement (hoptions : context.options = other.options)
    (htexts : TextsAlike context other (tagNodes node))
    (hparts : ∀ part ∈ node.namedChildren.flatMap propertyParts, Same context other part) :
    Agree (selfClosingElement context node (node.children.map (draft context)))
      (selfClosingElement other node (node.children.map (draft other))) := by
  unfold selfClosingElement
  rw [jsxTag_eq_of_texts hoptions (htexts.mono (List.subset_append_left _ _))]
  refine (same_jsxProperties (htexts.mono (List.subset_append_right _ _)) hparts).bind fun properties => ?_
  rw [factoryCall_eq hoptions]
  exact .refl _

theorem same_fragmentElement (hoptions : context.options = other.options)
    (hruns : RunsAlike context other ((bounds? node).toList.flatMap fun bounds =>
      Node.spans bounds.2.start bounds.1.stop (innerChildren bounds.1.stop bounds.2.start node)))
    (hparts : ∀ part ∈ ((bounds? node).map fun bounds => contentParts bounds.1.stop bounds.2.start node).getD [],
      Same context other part) :
    Agree (fragmentElement context node (node.children.map (draft context)))
      (fragmentElement other node (node.children.map (draft other))) := by
  unfold fragmentElement
  refine same_demand fun start hstart => same_demand fun stop hstop => ?_
  have hbounds : bounds? node = some (start, stop) := by
    unfold bounds?
    rw [hstart, hstop]
    rfl
  rw [hbounds] at hruns hparts
  refine (same_jsxChildren (fun span hspan => hruns span ?_) hparts).bind fun arguments => ?_
  · exact List.mem_flatMap.mpr ⟨_, List.mem_singleton_self _, hspan⟩
  · rw [factoryCall_eq hoptions, hoptions]
    exact .refl _

theorem same_contentElement (hoptions : context.options = other.options)
    (htexts : TextsAlike context other ((openingTag? node).toList.flatMap tagNodes))
    (hruns : RunsAlike context other ((tags? node).toList.flatMap fun tags =>
      Node.spans tags.2.start tags.1.stop (innerChildren tags.1.stop tags.2.start node)))
    (hparts : ∀ part ∈ ((tags? node).map fun tags =>
        tags.1.namedChildren.flatMap propertyParts ++ contentParts tags.1.stop tags.2.start node).getD [],
      Same context other part) :
    Agree (contentElement context (node.children.map (draft context)))
      (contentElement other (node.children.map (draft other))) := by
  unfold contentElement
  rw [← children_draft, ← children_draft, byField?_children_draft, byField?_children_draft, byField?_children_draft,
    byField?_children_draft, children_draft, children_draft, List.head?_map, List.head?_map, List.getLast?_map,
    List.getLast?_map, ← map_orElse, ← map_orElse, ← map_orElse, ← map_orElse, demand_map, demand_map, demand_map,
    demand_map]
  simp only [bind_assoc, pure_bind]
  refine same_demand fun opening hopening => same_demand fun closing hclosing => ?_
  have htags : tags? node = some (opening, closing) := by
    unfold tags?
    rw [hopening, hclosing]
    rfl
  have hopening : TextsAlike context other (tagNodes opening) := htexts.flatMap (Option.mem_toList.mpr hopening)
  rw [htags] at hruns hparts
  rw [children_draft, children_draft, node_draft, node_draft, node_draft, node_draft,
    jsxTag_eq_of_texts hoptions (hopening.mono (List.subset_append_left _ _))]
  refine (same_jsxProperties (hopening.mono (List.subset_append_right _ _)) fun part hpart =>
    hparts part (List.mem_append_left _ hpart)).bind fun properties => ?_
  refine (same_jsxChildren (fun span hspan => hruns span ?_) fun part hpart =>
    hparts part (List.mem_append_right _ hpart)).bind fun arguments => ?_
  · exact List.mem_flatMap.mpr ⟨_, List.mem_singleton_self _, hspan⟩
  · rw [factoryCall_eq hoptions]
    exact .refl _

theorem same_jsxElement (hkind : node.kind ∈ elementKinds) (hoptions : context.options = other.options)
    (htexts : TextsAlike context other (readNodes node)) (hruns : RunsAlike context other (runSpans node))
    (hparts : ∀ part ∈ elementParts node, Same context other part) :
    Agree (jsxElement context node (node.children.map (draft context)))
      (jsxElement other node (node.children.map (draft other))) := by
  unfold elementParts at hparts
  unfold readNodes at htexts
  unfold runSpans at hruns
  unfold jsxElement
  refine .then _ fun _ => ?_
  simp only [elementKinds, List.mem_cons, List.not_mem_nil, or_false] at hkind
  rcases hkind with hkind | hkind | hkind <;> rw [hkind] at htexts hruns hparts <;> rw [hkind]
  · exact same_contentElement hoptions htexts hruns hparts
  · exact same_selfClosingElement hoptions htexts hparts
  · exact same_fragmentElement hoptions hruns hparts

end Elements

/-! ## §3. The rule for a node -/

/-- The rule for a node reads the same in both sources, and what it emits is emitted alike. -/
structure ReadsAlike (context other : Context) (node : Node) : Prop where
  options_eq : context.options = other.options
  gaps : isTypeConstruct node = false → unwrapped? node = none → GapsAlike context other node
  openGaps : ∀ part ∈ openParts node, GapsAlike context other part
  texts : TextsAlike context other (readNodes node)
  runs : RunsAlike context other (runSpans node)
  isConstructor_eq : node.kind = "method_definition" → isConstructor context node = isConstructor other node
  parts : ∀ part ∈ emittedParts context node, Same context other part

section ReadsAlike

variable (h : ReadsAlike context other node)
include h

section Constructs

variable (hremoved : removedKinds.contains node.kind = false)
  (hwraps : wrapperKinds.contains node.kind = false) (hreadonly : node.isToken "readonly" = false)
include hremoved hwraps hreadonly

theorem same_constructParts {parts : List Node} (hconstruct : constructParts context node = parts) :
    ∀ part ∈ parts, Same context other part := by
  rw [← hconstruct]
  intro part hpart
  refine h.parts part ?_
  unfold emittedParts
  rwa [hremoved, hwraps, hreadonly]

/-- The kinds whose type syntax depends on more than the kind are tested for it. -/
theorem gapsAlike_of_kind {kind : String} (hkind : node.kind = kind) (hassertion : kind ≠ "type_assertion")
    (himport : kind = "import_statement" → node.hasToken "type" = false)
    (hexport : kind = "export_statement" → exportsTypes node = false)
    (hfield : kind = "public_field_definition" → (node.hasToken "declare" || node.hasToken "abstract") = false) :
    GapsAlike context other node := by
  subst hkind
  exact h.gaps (isTypeConstruct_eq_false hremoved hreadonly himport hexport hfield)
    (unwrapped?_eq_none hwraps hassertion)

/-- The other kinds are not. -/
theorem gapsAlike_of_plainKind {kind : String} (hkind : node.kind = kind)
    (hne : kind ∉ ["type_assertion", "import_statement", "export_statement", "public_field_definition"]) :
    GapsAlike context other node := by
  simp only [List.mem_cons, List.not_mem_nil, or_false, not_or] at hne
  exact gapsAlike_of_kind h hremoved hwraps hreadonly hkind hne.1 (fun h => absurd h hne.2.1)
    (fun h => absurd h hne.2.2.1) fun h => absurd h hne.2.2.2

theorem same_importConstruct (hkind : node.kind = "import_statement") :
    Agree (importStatement context node (node.children.map (draft context)))
      (importStatement other node (node.children.map (draft other))) := by
  refine same_importStatement hkind (fun htype => ?_) h.texts fun himports =>
    same_constructParts h hremoved hwraps hreadonly ?_
  · exact gapsAlike_of_kind h hremoved hwraps hreadonly hkind (by decide) (fun _ => htype)
      (fun h => absurd h (by decide)) fun h => absurd h (by decide)
  · rw [constructParts, hkind]
    exact if_neg (by rw [himports]; exact Bool.false_ne_true)

theorem same_exportConstruct (hkind : node.kind = "export_statement") :
    Agree (exportStatement context node (node.children.map (draft context)))
      (exportStatement other node (node.children.map (draft other))) := by
  refine same_exportStatement hkind (fun htypes => ?_) h.texts fun hexports =>
    same_constructParts h hremoved hwraps hreadonly ?_
  · exact gapsAlike_of_kind h hremoved hwraps hreadonly hkind (by decide) (fun h => absurd h (by decide))
      (fun _ => htypes) fun h => absurd h (by decide)
  · rw [constructParts, hkind]
    exact if_neg (by rw [hexports]; exact Bool.false_ne_true)

/-- A node of a kind that has no other rule than to lose some tokens. -/
theorem same_droppedTokens {kind : String} (hkind : node.kind = kind)
    (hchosen : kind ∉ chosenKinds ++ elementKinds)
    (hne : kind ∉ ["type_assertion", "import_statement", "export_statement", "public_field_definition"])
    {kinds : List String} (hdropped : droppedTokens kind = kinds) :
    Agree (Draft.dropTokens context kinds node (node.children.map (draft context)))
      (Draft.dropTokens other kinds node (node.children.map (draft other))) := by
  refine same_dropTokens (gapsAlike_of_plainKind h hremoved hwraps hreadonly hkind hne) ?_
  subst hkind hdropped
  rw [List.mem_append, not_or] at hchosen
  have hconstruct : constructParts context node = keptChildren node := by
    rw [constructParts_of_ne hchosen.1, isElement, if_neg fun hmem => hchosen.2 (List.contains_iff_mem.mp hmem)]
  exact same_constructParts h hremoved hwraps hreadonly hconstruct

theorem same_fieldDefinition (hkind : node.kind = "public_field_definition") :
    Agree (fieldDefinition context node (node.children.map (draft context)))
      (fieldDefinition other node (node.children.map (draft other))) := by
  unfold fieldDefinition
  split
  · exact .refl _
  · next hmarked =>
    refine same_dropTokens ?_ (same_constructParts h hremoved hwraps hreadonly ?_)
    · exact gapsAlike_of_kind h hremoved hwraps hreadonly hkind (by decide) (fun h => absurd h (by decide))
        (fun h => absurd h (by decide)) fun _ => (Bool.not_eq_true _).mp hmarked
    · rw [constructParts, hkind]
      exact (if_neg hmarked).trans (by rw [keptChildren, hkind]; rfl)

theorem same_elementConstruct (helement : elementKinds.contains node.kind = true) :
    Agree (jsxElement context node (node.children.map (draft context)))
      (jsxElement other node (node.children.map (draft other))) := by
  have hmem := List.contains_iff_mem.mp helement
  have hkinds : ∀ kind ∈ elementKinds, kind ∉ chosenKinds := by decide
  refine same_jsxElement hmem h.options_eq h.texts h.runs (same_constructParts h hremoved hwraps hreadonly ?_)
  rw [constructParts_of_ne (hkinds _ hmem), isElement, if_pos helement]

/-- A node of a kind that has no rule is put together from what its children emit. -/
theorem same_assembledConstruct (hchosen : node.kind ∉ chosenKinds ++ elementKinds)
    (hdropped : droppedTokens node.kind = []) :
    Agree (Draft.assemble context node (node.children.map (draft context)))
      (Draft.assemble other node (node.children.map (draft other))) := by
  have hkinds : ["type_assertion", "import_statement", "export_statement", "public_field_definition"]
      ⊆ chosenKinds := by decide
  have hsame := same_droppedTokens h hremoved hwraps hreadonly rfl hchosen
    (fun hmem => hchosen (List.mem_append_left _ (hkinds hmem))) hdropped
  rwa [dropTokens_nil, dropTokens_nil] at hsame

/-- The rule for a node that is neither a type nor a wrapper. -/
theorem same_constructEmission :
    Agree (constructEmission context node (node.children.map (draft context)))
      (constructEmission other node (node.children.map (draft other))) := by
  have hparts {parts : List Node} := @same_constructParts _ _ _ h hremoved hwraps hreadonly parts
  have hgaps {kind : String} := @gapsAlike_of_plainKind _ _ _ h hremoved hwraps hreadonly kind
  have hdropped {kind : String} := @same_droppedTokens _ _ _ h hremoved hwraps hreadonly kind
  unfold constructEmission
  split
  · next hkind => exact same_importConstruct h hremoved hwraps hreadonly hkind
  · next hkind => exact same_exportConstruct h hremoved hwraps hreadonly hkind
  · next hkind =>
    exact same_callExpression hkind (hgaps hkind (by decide)) h.openGaps h.texts
      (hparts (by rw [constructParts, hkind]; rfl))
  · next hkind =>
    rw [named_map_draft, named_map_draft, List.getLast?_map, List.getLast?_map]
    exact same_emitDemanded (hparts (by rw [constructParts, hkind]; rfl))
  · next hkind => exact hdropped hkind (by decide) (by decide) rfl
  · next hkind => exact hdropped hkind (by decide) (by decide) rfl
  · next hkind => exact same_fieldDefinition h hremoved hwraps hreadonly hkind
  · next hkind => exact hdropped hkind (by decide) (by decide) rfl
  · exact agree_reject
  · exact agree_reject
  · next hkind =>
    exact same_methodDefinition hkind (h.isConstructor_eq hkind) (hgaps hkind (by decide)) h.openGaps h.texts
      (hparts (by rw [constructParts, hkind]; rfl))
  · next hkind => exact same_enumDeclaration hkind h.texts (hparts (by rw [constructParts, hkind]; rfl))
  · split
    · next helement => exact same_elementConstruct h hremoved hwraps hreadonly helement
    · next helement =>
      refine same_assembledConstruct h hremoved hwraps hreadonly ?_ ?_
      · rw [List.mem_append, not_or]
        refine ⟨?_, fun hmem => helement (List.contains_iff_mem.mpr hmem)⟩
        simp only [chosenKinds, List.mem_cons, List.not_mem_nil, or_false, not_or]
        refine ⟨?_, ?_, ?_, ?_, ?_, ?_, ?_, ?_, ?_⟩ <;> assumption
      · unfold droppedTokens
        split <;> first
          | rfl
          | contradiction

end Constructs

/-- **A node whose rule reads the same in both sources, and whose parts are emitted alike, is emitted
alike.** -/
theorem same_of_readsAlike : Same context other node := by
  unfold Same
  rw [emit_eq, emit_eq]
  unfold emission
  split
  · exact .refl _
  · next hremoved =>
    split
    · next hwraps =>
      rw [named_map_draft, named_map_draft, List.head?_map, List.head?_map]
      refine same_emitDemanded fun part hpart => h.parts part ?_
      rw [emittedParts, if_neg hremoved, if_pos hwraps]
      exact hpart
    · next hwraps =>
      split
      · exact .refl _
      · next hreadonly =>
        exact same_constructEmission h ((Bool.not_eq_true _).mp hremoved) ((Bool.not_eq_true _).mp hwraps)
          ((Bool.not_eq_true _).mp hreadonly)

end ReadsAlike

end LivePreview.Lowering
