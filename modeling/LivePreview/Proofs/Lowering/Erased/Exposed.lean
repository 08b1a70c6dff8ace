/-
  LivePreview.Proofs.Lowering.Erased.Exposed
  ──────────────────────────────────────────
  **What is emitted is exposed.**

  The nodes that a rule emits are reached through children that the type syntax of the nodes on
  the way does not reach into (`exposed_of_mem_emittedParts`): an assertion exposes its operand,
  a node with modifiers its other children, a statement all but its clause.  So every node that a
  tree emits is exposed in it (`exposed_of_emits`).
-/
import LivePreview.Proofs.Lowering.Erased.TypeSyntax
import LivePreview.Proofs.Lowering.Types.Alike

namespace LivePreview.Lowering

open LivePreview.Syntax (Node)

variable {context : Context} {root node child part : Node}

/-! ## §1. Own type syntax -/

theorem isTypeConstruct_eq_false (hremoved : removedKinds.contains node.kind = false)
    (hreadonly : node.isToken "readonly" = false)
    (himport : node.kind = "import_statement" → node.hasToken "type" = false)
    (hexport : node.kind = "export_statement" → exportsTypes node = false)
    (hfield : node.kind = "public_field_definition" →
      (node.hasToken "declare" || node.hasToken "abstract") = false) : isTypeConstruct node = false := by
  have htype : typeKinds.contains node.kind = false := by
    have hkinds : ∀ kind ∈ typeKinds, kind ∈ removedKinds := by decide
    rw [List.contains_eq_mem, decide_eq_false_iff_not] at hremoved ⊢
    exact fun hmem => hremoved (hkinds _ hmem)
  have hand {kind : String} {value : Bool} (h : node.kind = kind → value = false) :
      (node.kind == kind && value) = false := by
    rw [Bool.and_eq_false_iff, beq_eq_false_iff_ne]
    by_cases hkind : node.kind = kind
    · exact .inr (h hkind)
    · exact .inl hkind
  unfold isTypeConstruct
  rw [htype, hreadonly, hand himport, hand hexport, hand hfield]
  rfl

/-- The kinds of nodes that can be type syntax as a whole. -/
def constructKinds : List String :=
  removedKinds ++ ["readonly", "import_statement", "export_statement", "public_field_definition"]

theorem isTypeConstruct_of_kind {kind : String} (hkind : node.kind = kind) (hplain : kind ∉ constructKinds) :
    isTypeConstruct node = false := by
  subst hkind
  simp only [constructKinds, List.mem_append, List.mem_cons, List.not_mem_nil, or_false, not_or] at hplain
  obtain ⟨hremoved, hreadonly, himport, hexport, hfield⟩ := hplain
  refine isTypeConstruct_eq_false ?_ ?_ (fun h => absurd h himport) (fun h => absurd h hexport)
    fun h => absurd h hfield
  · rwa [List.contains_eq_mem, decide_eq_false_iff_not]
  · unfold Node.isToken
    rw [beq_false_of_ne hreadonly, Bool.and_false]

theorem typeSpecifiers_eq_nil (himport : node.kind ≠ "import_statement")
    (hexport : node.kind ≠ "export_statement") :
    typeSpecifiers node = [] := by
  unfold typeSpecifiers clause?
  rw [if_neg (by simpa using himport), if_neg (by simpa using hexport)]
  rfl

theorem unwrapped?_eq_none (hwraps : wrapperKinds.contains node.kind = false)
    (hkind : node.kind ≠ "type_assertion") :
    unwrapped? node = none := by
  unfold unwrapped?
  rw [hwraps, if_neg Bool.false_ne_true, if_neg (by simpa using hkind)]

/-- The own type syntax of an assertion stands around its operand. -/
theorem ownSyntax_of_unwrapped {operand : Node} (h : unwrapped? node = some operand) :
    ownSyntax context node = [(node.start, operand.start), (operand.stop, node.stop)] := by
  have hkind : node.kind ∈ wrapperKinds ++ ["type_assertion"] :=
    List.mem_append.mpr ((kind_of_unwrapped? h).imp_right fun hkind => List.mem_singleton.mpr hkind)
  have hkinds : ∀ kind ∈ wrapperKinds ++ ["type_assertion"], kind ∉ constructKinds ∧
      kind ≠ "import_statement" ∧ kind ≠ "export_statement" ∧ modifierTokens kind = [] := by decide
  obtain ⟨hplain, himport, hexport, htokens⟩ := hkinds node.kind hkind
  have hconstruct : isTypeConstruct node = false := isTypeConstruct_of_kind rfl hplain
  have hmodifiers : modifiers context node = [] := modifiers_eq_nil htokens
  unfold ownSyntax besideOperand
  rw [hconstruct, hmodifiers, h, typeSpecifiers_eq_nil himport hexport]
  rfl

/-- An assertion exposes its operand. -/
theorem exposes_operand (h : unwrapped? node = some part) : Exposes context node part := by
  refine ⟨mem_children_of_unwrapped h, ?_⟩
  rw [ownSyntax_of_unwrapped h]
  simp

theorem Exposed.trans {inner : Node} (h : Exposed context root node) (hinner : Exposed context node inner) :
    Exposed context root inner := by
  induction hinner with
  | self => exact h
  | child _ hchild ih => exact .child ih hchild

theorem exposed_of_exposes (h : Exposes context node child) : Exposed context node child :=
  .child .self h

/-- Below a node without type syntax of its own, every child is exposed. -/
theorem exposed_of_mem_children (hown : ownSyntax context node = []) (hchild : child ∈ node.children) :
    Exposed context node child :=
  exposed_of_exposes (exposes_of_ownSyntax_eq_nil hown hchild)

theorem exposed_of_mem_named (hown : ownSyntax context node = []) (hchild : child ∈ node.namedChildren) :
    Exposed context node child :=
  exposed_of_mem_children hown (mem_children_of_named hchild)

/-- A node of a kind without type syntax exposes its children. -/
theorem exposed_of_kind {kind : String} (hkind : node.kind = kind) (hplain : kind ∉ syntaxKinds)
    (hchild : child ∈ node.children) : Exposed context node child :=
  exposed_of_mem_children (ownSyntax_eq_nil (hkind ▸ hplain)) hchild

/-! ## §2. Statements and modifiers -/

/-- What is emitted in the places of some nodes is one of them, or has come in the place of one that
satisfies the condition. -/
theorem mem_exchanged {q : Node → Bool} {parts : Node → List Node} {nodes : List Node}
    (h : part ∈ Place.partsOf (Place.exchangeFirst q parts (nodes.map Place.ofNode))) :
    part ∈ nodes ∨ ∃ node ∈ nodes, q node = true ∧ part ∈ parts node := by
  induction nodes with
  | nil => exact absurd h List.not_mem_nil
  | cons node nodes ih =>
    rw [List.map_cons, Place.exchangeFirst] at h
    split at h
    · next hq =>
      rcases List.mem_append.mp h with hmem | hmem
      · exact .inr ⟨node, List.mem_cons_self, hq, hmem⟩
      · have hmem : part ∈ Place.partsOf (nodes.map Place.ofNode) := hmem
        rw [Place.partsOf_map_ofNode] at hmem
        exact .inl (List.mem_cons_of_mem _ hmem)
    · rcases List.mem_append.mp h with hmem | hmem
      · rw [List.mem_singleton.mp hmem]
        exact .inl List.mem_cons_self
      · rcases ih hmem with hnode | ⟨other, hother, hq, hpart⟩
        · exact .inl (List.mem_cons_of_mem _ hnode)
        · exact .inr ⟨other, List.mem_cons_of_mem _ hother, hq, hpart⟩

/-- Without the first node that satisfies a condition, the others are left on both sides of it. -/
theorem exists_split_of_find? {q : Node → Bool} {nodes : List Node} {found : Node}
    (h : nodes.find? q = some found) :
    ∃ before behind, nodes = before ++ found :: behind ∧
      Place.partsOf (Place.exchangeFirst q (fun _ => []) (nodes.map Place.ofNode)) = before ++ behind := by
  induction nodes with
  | nil => cases h
  | cons node nodes ih =>
    rw [List.map_cons, Place.exchangeFirst]
    by_cases hq : q node = true
    · rw [List.find?_cons_of_pos hq] at h
      cases h
      exact ⟨[], nodes, rfl, by rw [if_pos (by exact hq)]; exact Place.partsOf_map_ofNode nodes⟩
    · rw [List.find?_cons_of_neg hq] at h
      obtain ⟨before, behind, rfl, hparts⟩ := ih h
      refine ⟨node :: before, behind, rfl, ?_⟩
      rw [if_neg (by exact hq), List.cons_append, ← hparts]
      rfl

theorem find?_named (node : Node) (kind : String) :
    node.children.find? (fun child => child.isNamed && child.kind == kind)
      = node.namedChildren.find? (·.kind == kind) := by
  unfold Node.namedChildren
  rw [List.find?_filter]
  congr 1
  funext child
  rw [Bool.decide_and, Bool.decide_eq_true, Bool.decide_eq_true]

section Layout

variable (hplaced : ∀ other ∈ node.preorder, other.InPlace context.source)
include hplaced

/-- A statement exposes all its children but the clause. -/
theorem exposes_of_mem_statementParts {kind : String} (hconstruct : isTypeConstruct node = false)
    (hkind : node.kind = "import_statement" ∨ node.kind = "export_statement")
    (hclause : clause? node = node.namedChildren.find? (·.kind == kind)) (h : part ∈ statementParts kind node) :
    Exposes context node part := by
  have hmodifiers : modifiers context node = [] := by
    refine modifiers_eq_nil ?_
    rcases hkind with hkind | hkind <;> rw [hkind] <;> rfl
  have hoperand : unwrapped? node = none := by
    rcases hkind with hkind | hkind <;> exact unwrapped?_eq_none (by rw [hkind]; decide) (by rw [hkind]; decide)
  -- the part is one of the children beside the clause
  have hpart : part ∈ Place.partsOf (Place.exchangeFirst (fun child => child.isNamed && child.kind == kind)
      (fun _ => []) (node.children.map Place.ofNode)) :=
    (Place.mem_partsOf_exchangeFirst h).resolve_right fun ⟨_, _, hmem⟩ => absurd hmem List.not_mem_nil
  refine ⟨(mem_exchanged hpart).resolve_right fun ⟨_, _, _, hmem⟩ => absurd hmem List.not_mem_nil, ?_⟩
  unfold ownSyntax besideOperand
  rw [hconstruct, hmodifiers, hoperand, if_neg Bool.false_ne_true]
  intro stretch hstretch
  obtain ⟨specifier, hspecifier, rfl⟩ := List.mem_map.mp hstretch
  obtain ⟨clause, hfound, hinner⟩ := exists_clause_of_mem_typeSpecifiers hspecifier
  have hchild := mem_children_of_clause? hfound
  have hbounds := Node.bounds_of_mem_preorder
    (fun other hother => hplaced other (Node.mem_preorder_of_mem_children hchild hother)) hinner
  rw [hclause, ← find?_named] at hfound
  obtain ⟨before, behind, hchildren, hparts⟩ := exists_split_of_find? hfound
  have hrow := (hplaced node (Node.mem_preorder_self node)).inRow
  rw [hchildren] at hrow
  obtain ⟨hbefore, -, hbehind⟩ := hrow.split
  rw [hparts] at hpart
  rcases List.mem_append.mp hpart with hmem | hmem
  · exact .inr (Nat.le_trans (hbefore.bounds hmem).2.2 hbounds.1)
  · exact .inl (Nat.le_trans hbounds.2 (hbehind.bounds hmem).1)

/-- A node whose own type syntax are modifiers exposes the other children. -/
theorem exposes_of_modifiers (hown : ownSyntax context node = (modifiers context node).map extent)
    (hchild : part ∈ node.children)
    (hpart : part.isNamed = false → part.kind ∉ modifierTokens node.kind) : Exposes context node part := by
  refine ⟨hchild, ?_⟩
  rw [hown]
  intro stretch hstretch
  obtain ⟨token, htoken, rfl⟩ := List.mem_map.mp hstretch
  have hrow := (hplaced node (Node.mem_preorder_self node)).inRow
  rcases hrow.eq_or_apart (mem_children_of_mem_modifiers htoken) hchild with rfl | hapart
  · -- the part is no modifier
    unfold modifiers at htoken
    split at htoken
    · exact absurd htoken List.not_mem_nil
    · have hmark := (List.mem_filter.mp htoken).2
      rw [Bool.and_eq_true, Bool.not_eq_true', List.contains_iff_mem] at hmark
      exact absurd hmark.2 (hpart hmark.1)
  · exact hapart

end Layout

theorem ownSyntax_eq_modifiers (hconstruct : isTypeConstruct node = false) (hoperand : unwrapped? node = none)
    (himport : node.kind ≠ "import_statement") (hexport : node.kind ≠ "export_statement") :
    ownSyntax context node = (modifiers context node).map extent := by
  unfold ownSyntax besideOperand
  rw [hconstruct, hoperand, typeSpecifiers_eq_nil himport hexport, if_neg Bool.false_ne_true, List.nil_append]
  exact (List.append_nil _).trans (List.append_nil _)

/-- The tokens that a node loses are its modifiers. -/
theorem modifierTokens_eq {kind : String} (h : kind ≠ "enum_declaration") :
    modifierTokens kind = droppedTokens kind := by
  unfold modifierTokens droppedTokens
  split
  · rfl
  · rfl
  · rfl
  · rfl
  · rfl
  · contradiction
  · split
    · contradiction
    · contradiction
    · contradiction
    · contradiction
    · contradiction
    · rfl

/-! ## §3. Parts that rules take apart -/

/-- The parts that the rule for the node takes apart are constructs without type syntax of their own. -/
def OpensPlain (context : Context) (node : Node) : Prop :=
  ∀ part ∈ openParts node, part.isNamed = true ∧ ownSyntax context part = []

instance (context : Context) (node : Node) : Decidable (OpensPlain context node) :=
  inferInstanceAs (Decidable (∀ part ∈ openParts node, part.isNamed = true ∧ ownSyntax context part = []))

/-- The kinds of nodes whose rules take parts apart. -/
def openKinds : List String :=
  ["call_expression", "method_definition", "enum_declaration", "jsx_element"]

theorem kind_of_mem_openParts (h : part ∈ openParts node) : node.kind ∈ openKinds := by
  unfold openParts at h
  split at h
  · next hkind => exact hkind ▸ by decide
  · next hkind => exact hkind ▸ by decide
  · next hkind => exact hkind ▸ by decide
  · next hkind => exact hkind ▸ by decide
  · exact absurd h List.not_mem_nil

theorem mem_children_of_mem_openParts (h : part ∈ openParts node) : part ∈ node.children := by
  have hfilter {name : String} (h : part ∈ childrenIn name node) : part ∈ node.children := (List.mem_filter.mp h).1
  unfold openParts at h
  split at h
  · exact hfilter h
  · exact (List.mem_append.mp h).elim hfilter hfilter
  · exact hfilter h
  · rcases Draft.eq_some_or_of_orElse (Option.mem_toList.mp h) with hfield | hhead
    · exact List.mem_of_find?_eq_some hfield
    · exact List.mem_of_head? hhead
  · exact absurd h List.not_mem_nil

/-- A node exposes the parts that its rule takes apart: the modifiers beside them are no constructs. -/
theorem exposes_of_mem_openParts (hplaced : ∀ other ∈ node.preorder, other.InPlace context.source)
    (hopen : OpensPlain context node) (h : part ∈ openParts node) : Exposes context node part := by
  have hkinds : ∀ kind ∈ openKinds, kind ∉ constructKinds ∧ wrapperKinds.contains kind = false ∧
      kind ≠ "type_assertion" ∧ kind ≠ "import_statement" ∧ kind ≠ "export_statement" := by decide
  obtain ⟨hplain, hwraps, hassertion, himport, hexport⟩ := hkinds node.kind (kind_of_mem_openParts h)
  refine exposes_of_modifiers hplaced (ownSyntax_eq_modifiers (isTypeConstruct_of_kind rfl hplain)
    (unwrapped?_eq_none hwraps hassertion) himport hexport) (mem_children_of_mem_openParts h) fun htoken => ?_
  exact absurd ((hopen part h).1.symm.trans htoken) (by decide)

theorem exposed_of_mem_callParts (hkind : node.kind = "call_expression") (hopen : OpensPlain context node)
    (h : part ∈ callParts node) : Exposed context node part := by
  unfold callParts at h
  split at h
  · exact exposed_of_kind hkind (by decide) h
  · rcases mem_exchanged h with hchild | ⟨arguments, hchild, hfield, hpart⟩
    · exact exposed_of_kind hkind (by decide) hchild
    · have hown : ownSyntax context arguments = [] := by
        refine (hopen arguments ?_).2
        unfold openParts
        rw [hkind]
        exact List.mem_filter.mpr ⟨hchild, hfield⟩
      have hinner := (mem_exchanged hpart).resolve_right fun ⟨_, _, _, hmem⟩ => absurd hmem List.not_mem_nil
      exact (exposed_of_kind hkind (by decide) hchild).trans (exposed_of_mem_children hown hinner)

theorem exposed_of_mem_initializers (hplaced : ∀ other ∈ node.preorder, other.InPlace context.source)
    (hkind : node.kind = "enum_declaration") (hopen : OpensPlain context node)
    (h : part ∈ (enumMembers node).filterMap initializer?) : Exposed context node part := by
  obtain ⟨member, hmember, hinitializer⟩ := List.mem_filterMap.mp h
  unfold enumMembers at hmember
  cases hbody : node.childByField? "body" with
  | none =>
    rw [hbody] at hmember
    exact absurd hmember List.not_mem_nil
  | some body =>
    rw [hbody] at hmember
    have hopened : body ∈ openParts node := by
      unfold openParts
      rw [hkind]
      exact mem_childrenIn_of_childByField? hbody
    have hbody : Exposes context node body := exposes_of_mem_openParts hplaced hopen hopened
    have hown : ownSyntax context body = [] := (hopen body hopened).2
    have hassignment : member.kind = "enum_assignment" := by
      by_contra hne
      rw [initializer?_of_ne hne] at hinitializer
      cases hinitializer
    exact (exposed_of_exposes hbody).trans ((exposed_of_mem_named hown hmember).trans
      (exposed_of_kind hassignment (by decide) (mem_children_of_initializer hinitializer)))

/-! ## §4. Elements -/

theorem exposed_of_expression (hkind : (node.kind == "jsx_expression") = true) {q : Node → Bool}
    (h : part ∈ (node.namedChildren.find? q).toList) : Exposed context node part :=
  exposed_of_kind (eq_of_beq hkind) (by decide)
    (mem_children_of_named (List.mem_of_find?_eq_some (Option.mem_toList.mp h)))

theorem exposed_of_mem_valueParts (h : part ∈ valueParts node) : Exposed context node part := by
  unfold valueParts at h
  split at h
  · exact absurd h List.not_mem_nil
  · split at h
    · next hkind => exact exposed_of_expression hkind h
    · rw [List.mem_singleton.mp h]
      exact .self

theorem exposed_of_mem_propertyParts (h : part ∈ propertyParts node) : Exposed context node part := by
  unfold propertyParts at h
  split at h
  · next hkind =>
    cases hvalue : node.namedChildren[1]? with
    | none =>
      rw [hvalue] at h
      exact absurd h List.not_mem_nil
    | some value =>
      rw [hvalue] at h
      exact (exposed_of_kind (eq_of_beq hkind) (by decide)
        (mem_children_of_named (List.mem_of_getElem? hvalue))).trans (exposed_of_mem_valueParts h)
  · split at h
    · next hkind => exact exposed_of_expression hkind h
    · exact absurd h List.not_mem_nil

theorem exposed_of_mem_properties (hown : ownSyntax context node = [])
    (h : part ∈ node.namedChildren.flatMap propertyParts) : Exposed context node part := by
  obtain ⟨child, hchild, hpart⟩ := List.mem_flatMap.mp h
  exact (exposed_of_mem_named hown hchild).trans (exposed_of_mem_propertyParts hpart)

theorem exposed_of_mem_contentParts {start stop : Nat} (hown : ownSyntax context node = [])
    (h : part ∈ contentParts start stop node) : Exposed context node part := by
  obtain ⟨child, hchild, hpart⟩ := List.mem_flatMap.mp h
  refine (exposed_of_mem_children hown (List.mem_filter.mp hchild).1).trans ?_
  unfold childParts at hpart
  split at hpart
  · exact absurd hpart List.not_mem_nil
  · split at hpart
    · next hkind => exact exposed_of_expression hkind hpart
    · rw [List.mem_singleton.mp hpart]
      exact .self

theorem exposed_of_mem_elementParts (hkind : node.kind ∈ elementKinds) (hopen : OpensPlain context node)
    (h : part ∈ elementParts node) : Exposed context node part := by
  have hkinds : ∀ kind ∈ elementKinds, kind ∉ syntaxKinds := by decide
  have hown : ownSyntax context node = [] := ownSyntax_eq_nil (hkinds node.kind hkind)
  unfold elementParts at h
  split at h
  · exact exposed_of_mem_properties hown h
  · split at h
    · cases hbounds : bounds? node with
      | none =>
        rw [hbounds] at h
        exact absurd h List.not_mem_nil
      | some bounds =>
        rw [hbounds] at h
        exact exposed_of_mem_contentParts hown h
    · next hself hfragment =>
      cases htags : tags? node with
      | none =>
        rw [htags] at h
        exact absurd h List.not_mem_nil
      | some tags =>
        rw [htags] at h
        rcases List.mem_append.mp h with hmem | hmem
        · -- the opening tag is taken apart
          have helement : node.kind = "jsx_element" := by
            simp only [elementKinds, List.mem_cons, List.not_mem_nil, or_false] at hkind
            simp only [beq_iff_eq] at hself hfragment
            tauto
          have hopened : tags.1 ∈ openParts node := by
            unfold openParts
            rw [helement]
            unfold tags? at htags
            obtain ⟨opening, hopening, hrest⟩ := Option.bind_eq_some_iff.mp htags
            obtain ⟨closing, -, hpair⟩ := Option.bind_eq_some_iff.mp hrest
            cases hpair
            exact Option.mem_toList.mpr hopening
          exact (exposed_of_mem_children hown (mem_children_of_tags? htags)).trans
            (exposed_of_mem_properties (hopen tags.1 hopened).2 hmem)
        · exact exposed_of_mem_contentParts hown hmem

/-! ## §5. What is emitted -/

section Emitted

variable (hplaced : ∀ other ∈ node.preorder, other.InPlace context.source)
include hplaced

/-- A node keeps the children that it exposes. -/
theorem exposes_of_mem_keptChildren (hconstruct : isTypeConstruct node = false)
    (hoperand : unwrapped? node = none)
    (hkind : node.kind ∉ ["import_statement", "export_statement", "enum_declaration"])
    (h : part ∈ keptChildren node) : Exposes context node part := by
  simp only [List.mem_cons, List.not_mem_nil, or_false, not_or] at hkind
  obtain ⟨himport, hexport, henum⟩ := hkind
  obtain ⟨hchild, hkept⟩ := List.mem_filter.mp h
  refine exposes_of_modifiers hplaced (ownSyntax_eq_modifiers hconstruct hoperand himport hexport) hchild
    fun htoken hmem => ?_
  rw [modifierTokens_eq henum] at hmem
  rw [htoken, Bool.not_false, Bool.true_and, List.contains_iff_mem.mpr hmem] at hkept
  exact absurd hkept (by decide)

theorem exposed_of_mem_methodParts (hkind : node.kind = "method_definition")
    (hconstruct : isTypeConstruct node = false) (hopen : OpensPlain context node) (h : part ∈ methodParts context node) : Exposed context node part := by
  have hoperand : unwrapped? node = none := unwrapped?_eq_none (by rw [hkind]; decide) (by rw [hkind]; decide)
  unfold methodParts at h
  split at h
  · next hassigns =>
    -- a constructor that assigns properties has no modifiers, and its body is taken apart
    have hown : ownSyntax context node = [] := by
      rw [ownSyntax_eq_modifiers hconstruct hoperand (by rw [hkind]; decide) (by rw [hkind]; decide)]
      unfold modifiers
      rw [hkind, hassigns]
      rfl
    rcases mem_exchanged h with hchild | ⟨body, hchild, hfield, hpart⟩
    · exact exposed_of_mem_children hown hchild
    · have hbody : ownSyntax context body = [] := by
        refine (hopen body ?_).2
        unfold openParts
        rw [hkind]
        exact List.mem_append_right _ (List.mem_filter.mpr ⟨hchild, hfield⟩)
      have hinner : part ∈ body.children := by
        unfold bodyParts at hpart
        split at hpart
        · exact hpart
        · exact (List.mem_filter.mp hpart).1
      exact (exposed_of_mem_children hown hchild).trans (exposed_of_mem_children hbody hinner)
  · exact exposed_of_exposes
      (exposes_of_mem_keptChildren hplaced hconstruct hoperand (by rw [hkind]; decide) h)

/-- What is left of a construct that is neither removed nor a wrapper is exposed in it. -/
theorem exposed_of_mem_constructParts (hopen : OpensPlain context node)
    (hremoved : removedKinds.contains node.kind = false) (hwraps : wrapperKinds.contains node.kind = false)
    (hreadonly : node.isToken "readonly" = false) (h : part ∈ constructParts context node) :
    Exposed context node part := by
  -- the kinds whose type syntax depends on more than the kind are tested for it
  have hconstruct {kind : String} (hkind : node.kind = kind)
      (hplain : kind ∉ ["import_statement", "export_statement", "public_field_definition"]) :
      isTypeConstruct node = false := by
    simp only [List.mem_cons, List.not_mem_nil, or_false, not_or, ← hkind] at hplain
    exact isTypeConstruct_eq_false hremoved hreadonly (fun h => absurd h hplain.1) (fun h => absurd h hplain.2.1)
      fun h => absurd h hplain.2.2
  by_cases hchosen : node.kind ∈ chosenKinds
  · unfold constructParts at h
    split at h
    · next hkind =>
      split at h
      · exact absurd h List.not_mem_nil
      · next himports =>
        have htype := (Bool.or_eq_false_iff.mp ((Bool.not_eq_true _).mp himports)).1
        refine exposed_of_exposes (exposes_of_mem_statementParts hplaced ?_ (.inl hkind) ?_ h)
        · exact isTypeConstruct_eq_false hremoved hreadonly (fun _ => htype)
            (fun h => absurd (hkind.symm.trans h) (by decide)) fun h => absurd (hkind.symm.trans h) (by decide)
        · unfold clause?
          rw [hkind]
          rfl
    · next hkind =>
      split at h
      · exact absurd h List.not_mem_nil
      · next hexports =>
        have htypes := (Bool.or_eq_false_iff.mp ((Bool.not_eq_true _).mp hexports)).1
        refine exposed_of_exposes (exposes_of_mem_statementParts hplaced ?_ (.inr hkind) ?_ h)
        · exact isTypeConstruct_eq_false hremoved hreadonly
            (fun h => absurd (hkind.symm.trans h) (by decide)) (fun _ => htypes)
            fun h => absurd (hkind.symm.trans h) (by decide)
        · unfold clause?
          rw [hkind]
          rfl
    · next hkind => exact exposed_of_mem_callParts hkind hopen h
    · next hkind =>
      refine exposed_of_exposes (exposes_operand ?_)
      unfold unwrapped?
      rw [hkind]
      exact Option.mem_toList.mp h
    · next hkind =>
      split at h
      · exact absurd h List.not_mem_nil
      · next hmarked =>
        refine exposed_of_exposes (exposes_of_mem_keptChildren hplaced ?_ ?_ (by rw [hkind]; decide) h)
        · exact isTypeConstruct_eq_false hremoved hreadonly
            (fun h => absurd (hkind.symm.trans h) (by decide)) (fun h => absurd (hkind.symm.trans h) (by decide))
            fun _ => (Bool.not_eq_true _).mp hmarked
        · exact unwrapped?_eq_none hwraps (by rw [hkind]; decide)
    · exact absurd h List.not_mem_nil
    · exact absurd h List.not_mem_nil
    · next hkind => exact exposed_of_mem_methodParts hplaced hkind (hconstruct hkind (by decide)) hopen h
    · next hkind => exact exposed_of_mem_initializers hplaced hkind hopen h
    · next kind _ _ _ _ _ _ _ _ _ => simp_all [chosenKinds]
  · rw [constructParts_of_ne hchosen] at h
    simp only [chosenKinds, List.mem_cons, List.not_mem_nil, or_false, not_or] at hchosen
    obtain ⟨himport, hexport, -, hassertion, hfield, -, -, -, henum⟩ := hchosen
    split at h
    · next helement => exact exposed_of_mem_elementParts (List.contains_iff_mem.mp helement) hopen h
    · refine exposed_of_exposes (exposes_of_mem_keptChildren hplaced (hconstruct rfl ?_) ?_ ?_ h)
      · simp [himport, hexport, hfield]
      · exact unwrapped?_eq_none hwraps hassertion
      · simp [himport, hexport, henum]

/-- **A node exposes what it emits.** -/
theorem exposed_of_mem_emittedParts (hopen : OpensPlain context node) (h : part ∈ emittedParts context node) :
    Exposed context node part := by
  unfold emittedParts at h
  split at h
  · exact absurd h List.not_mem_nil
  · next hremoved =>
    have hremoved := (Bool.not_eq_true _).mp hremoved
    split at h
    · next hwraps =>
      refine exposed_of_exposes (exposes_operand ?_)
      unfold unwrapped?
      rw [if_pos hwraps]
      exact Option.mem_toList.mp h
    · next hwraps =>
      have hwraps := (Bool.not_eq_true _).mp hwraps
      split at h
      · exact absurd h List.not_mem_nil
      · next hreadonly =>
        have hreadonly := (Bool.not_eq_true _).mp hreadonly
        exact exposed_of_mem_constructParts hplaced hopen hremoved hwraps hreadonly h

end Emitted

/-- **What a tree emits is exposed in it.** -/
theorem exposed_of_emits (hplaced : ∀ other ∈ root.preorder, other.InPlace context.source)
    (hopen : ∀ other ∈ root.preorder, OpensPlain context other) (h : Emits context root node) :
    Exposed context root node := by
  induction h with
  | self => exact .self
  | part _ hpart ih =>
    have hmem := ih.mem_preorder
    exact ih.trans (exposed_of_mem_emittedParts
      (fun other hother => hplaced other (Node.preorder_subset hmem hother)) (hopen _ hmem) hpart)

end LivePreview.Lowering
