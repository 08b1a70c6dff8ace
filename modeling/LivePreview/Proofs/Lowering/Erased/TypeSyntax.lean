/-
  LivePreview.Proofs.Lowering.Erased.TypeSyntax
  ─────────────────────────────────────────────
  **Where the type syntax of a source stands.**

  Every node has type syntax of its own, which takes up stretches of the source (`ownSyntax`):
  a type or a declaration of types takes up all of its node, a modifier is one of the tokens,
  and beside an expression the type syntax is what stands around the operand:

      source   f(this.x! as T, <U>y)
      syntax           ──────  ───

  A node is exposed if it is reached from the root through nodes whose own type syntax does not
  reach into the next one (`Exposed`).  All type syntax of the tree lies in an exposed node or
  beside it (`Exposed.clear`), and none lies between the children (`clear_of_mem_spans`).  The
  nodes that are emitted are exposed (`exposed_of_emits`).
-/
import LivePreview.Proofs.Lowering.Emitted.Front

namespace LivePreview.Lowering

open LivePreview.Syntax (Node)

variable {context : Context} {root node child part : Node}

/-! ## §1. Type syntax -/

/-- The kinds of nodes that are types, or declare types only, or say who may use what. -/
def typeKinds : List String :=
  ["type_annotation", "asserts_annotation", "type_predicate_annotation", "type_parameters", "type_arguments",
    "implements_clause", "interface_declaration", "type_alias_declaration", "ambient_declaration",
    "function_signature", "method_signature", "abstract_method_signature", "index_signature",
    "accessibility_modifier", "override_modifier"]

/-- The node is type syntax as a whole. -/
def isTypeConstruct (node : Node) : Bool :=
  typeKinds.contains node.kind || node.isToken "readonly"
    || (node.kind == "import_statement" && node.hasToken "type")
    || (node.kind == "export_statement" && exportsTypes node)
    || (node.kind == "public_field_definition" && (node.hasToken "declare" || node.hasToken "abstract"))

/-- The tokens that mark a kind of node for the sake of its types, or as an enumeration. -/
def modifierTokens : String → List String
  | "optional_parameter" | "method_definition" => ["?"]
  | "variable_declarator" => ["!"]
  | "public_field_definition" => ["?", "!"]
  | "abstract_class_declaration" => ["abstract"]
  | "enum_declaration" => ["const", "enum"]
  | _ => []

/-- The stretch that a node takes up. -/
def extent (node : Node) : Nat × Nat :=
  (node.start, node.stop)

/-- The modifiers among the tokens of a node.  The mark of a constructor that assigns properties is none
of them, since a constructor cannot be optional. -/
def modifiers (context : Context) (node : Node) : List Node :=
  if node.kind == "method_definition" && assignsProperties context node then []
  else node.children.filter fun child => !child.isNamed && (modifierTokens node.kind).contains child.kind

/-- What stands around the operand of an assertion. -/
def besideOperand (node : Node) : List (Nat × Nat) :=
  match unwrapped? node with
  | none => []
  | some operand => [(node.start, operand.start), (operand.stop, node.stop)]

/-- The clause of an import or export statement. -/
def clause? (node : Node) : Option Node :=
  if node.kind == "import_statement" then node.namedChildren.find? (·.kind == "import_clause")
  else if node.kind == "export_statement" then node.namedChildren.find? (·.kind == "export_clause")
  else none

/-- The names in the braces of an import or export clause. -/
def clauseSpecifiers (clause : Node) : List Node :=
  if clause.kind == "export_clause" then clause.namedChildren.filter (·.kind == "export_specifier")
  else (clause.namedChildren.filter (·.kind == "named_imports")).flatMap fun part =>
    part.namedChildren.filter (·.kind == "import_specifier")

/-- The names of types in the clause of an import or export statement. -/
def typeSpecifiers (node : Node) : List Node :=
  (((clause? node).map clauseSpecifiers).getD []).filter isTypeOnly

/-- The stretches of type syntax that belong to the node itself. -/
def ownSyntax (context : Context) (node : Node) : List (Nat × Nat) :=
  (if isTypeConstruct node then [extent node] else []) ++ (modifiers context node).map extent
    ++ besideOperand node ++ (typeSpecifiers node).map extent

/-- The stretches of type syntax in a tree. -/
def typeSyntax (context : Context) (root : Node) : List (Nat × Nat) :=
  root.preorder.flatMap (ownSyntax context)

/-- No type syntax of the tree reaches between the offsets. -/
def Clear (context : Context) (root : Node) (start stop : Nat) : Prop :=
  ∀ stretch ∈ typeSyntax context root, stretch.2 ≤ start ∨ stop ≤ stretch.1

instance (context : Context) (root : Node) (start stop : Nat) : Decidable (Clear context root start stop) :=
  inferInstanceAs (Decidable (∀ stretch ∈ typeSyntax context root, stretch.2 ≤ start ∨ stop ≤ stretch.1))

/-- The kinds of nodes that have type syntax of their own, or can have. -/
def syntaxKinds : List String :=
  typeKinds ++ wrapperKinds
    ++ ["type_assertion", "readonly", "import_statement", "export_statement", "public_field_definition",
      "optional_parameter", "method_definition", "variable_declarator", "abstract_class_declaration",
      "enum_declaration"]

theorem modifierTokens_eq_nil (h : node.kind ∉ syntaxKinds) : modifierTokens node.kind = [] := by
  unfold modifierTokens
  split
  · next hkind => exact absurd (hkind ▸ by decide) h
  · next hkind => exact absurd (hkind ▸ by decide) h
  · next hkind => exact absurd (hkind ▸ by decide) h
  · next hkind => exact absurd (hkind ▸ by decide) h
  · next hkind => exact absurd (hkind ▸ by decide) h
  · next hkind => exact absurd (hkind ▸ by decide) h
  · rfl

theorem modifiers_eq_nil (h : modifierTokens node.kind = []) : modifiers context node = [] := by
  unfold modifiers
  rw [h]
  split
  · rfl
  · exact List.filter_eq_nil_iff.mpr fun child _ => by simp

/-- A node of any other kind has none. -/
theorem ownSyntax_eq_nil (h : node.kind ∉ syntaxKinds) : ownSyntax context node = [] := by
  have hmodifiers : modifiers context node = [] := modifiers_eq_nil (modifierTokens_eq_nil h)
  simp only [syntaxKinds, List.mem_append, List.mem_cons, List.not_mem_nil, or_false, not_or] at h
  obtain ⟨⟨htype, hwraps⟩, hassertion, hreadonly, himport, hexport, hfield, -⟩ := h
  have hoperand : unwrapped? node = none := by
    unfold unwrapped?
    rw [if_neg fun hmem => hwraps (List.contains_iff_mem.mp hmem),
      if_neg fun hkind => hassertion (eq_of_beq hkind)]
  have hclause : clause? node = none := by
    unfold clause?
    rw [if_neg fun hkind => himport (eq_of_beq hkind), if_neg fun hkind => hexport (eq_of_beq hkind)]
  have hconstruct : isTypeConstruct node = false := by
    unfold isTypeConstruct Node.isToken
    simp [htype, hreadonly, himport, hexport, hfield]
  unfold ownSyntax besideOperand typeSpecifiers
  rw [hconstruct, hmodifiers, hoperand, hclause]
  rfl

/-- A node without type syntax is neither type syntax nor an assertion. -/
theorem plain_of_ownSyntax_eq_nil (h : ownSyntax context node = []) :
    isTypeConstruct node = false ∧ unwrapped? node = none := by
  unfold ownSyntax besideOperand at h
  simp only [List.append_eq_nil_iff] at h
  obtain ⟨⟨⟨hconstruct, -⟩, hoperand⟩, -⟩ := h
  constructor
  · rw [Bool.eq_false_iff]
    intro htrue
    rw [if_pos htrue] at hconstruct
    exact List.cons_ne_nil _ _ hconstruct
  · split at hoperand
    · assumption
    · exact absurd hoperand (List.cons_ne_nil _ _)

/-! ## §2. Type syntax lies in its node -/

theorem mem_preorder_of_mem_clauseSpecifiers {clause specifier : Node} (h : specifier ∈ clauseSpecifiers clause) :
    specifier ∈ clause.preorder := by
  unfold clauseSpecifiers at h
  split at h
  · exact Node.mem_preorder_of_mem_children (mem_children_of_named (List.mem_filter.mp h).1)
      (Node.mem_preorder_self specifier)
  · obtain ⟨part, hpart, hspecifier⟩ := List.mem_flatMap.mp h
    exact Node.mem_preorder_of_mem_children (mem_children_of_named (List.mem_filter.mp hpart).1)
      (Node.mem_preorder_of_mem_children (mem_children_of_named (List.mem_filter.mp hspecifier).1)
        (Node.mem_preorder_self specifier))

theorem mem_children_of_clause? {clause : Node} (h : clause? node = some clause) : clause ∈ node.children := by
  unfold clause? at h
  split at h
  · exact mem_children_of_named (List.mem_of_find?_eq_some h)
  · split at h
    · exact mem_children_of_named (List.mem_of_find?_eq_some h)
    · cases h

/-- The names of types lie in the clause of their statement. -/
theorem exists_clause_of_mem_typeSpecifiers {specifier : Node} (h : specifier ∈ typeSpecifiers node) :
    ∃ clause, clause? node = some clause ∧ specifier ∈ clause.preorder := by
  obtain ⟨hmem, -⟩ := List.mem_filter.mp h
  cases hclause : clause? node with
  | none =>
    rw [hclause] at hmem
    exact absurd hmem List.not_mem_nil
  | some clause =>
    rw [hclause] at hmem
    exact ⟨clause, rfl, mem_preorder_of_mem_clauseSpecifiers hmem⟩

theorem mem_children_of_mem_modifiers (h : part ∈ modifiers context node) : part ∈ node.children := by
  unfold modifiers at h
  split at h
  · exact absurd h List.not_mem_nil
  · exact (List.mem_filter.mp h).1

section Layout

variable (hplaced : ∀ other ∈ root.preorder, other.InPlace context.source)
include hplaced

/-- The own type syntax of a node that is neither type syntax as a whole nor an assertion lies in its
children. -/
theorem exists_child_of_mem_ownSyntax (hconstruct : isTypeConstruct root = false)
    (hoperand : unwrapped? root = none) {stretch : Nat × Nat} (h : stretch ∈ ownSyntax context root) :
    ∃ child ∈ root.children, child.start ≤ stretch.1 ∧ stretch.2 ≤ child.stop := by
  unfold ownSyntax besideOperand at h
  rw [hconstruct, hoperand, if_neg Bool.false_ne_true, List.nil_append, List.append_nil] at h
  rcases List.mem_append.mp h with hmem | hmem
  · obtain ⟨token, htoken, rfl⟩ := List.mem_map.mp hmem
    exact ⟨token, mem_children_of_mem_modifiers htoken, Nat.le_refl _, Nat.le_refl _⟩
  · obtain ⟨specifier, hspecifier, rfl⟩ := List.mem_map.mp hmem
    obtain ⟨clause, hclause, hinner⟩ := exists_clause_of_mem_typeSpecifiers hspecifier
    have hchild := mem_children_of_clause? hclause
    exact ⟨clause, hchild, Node.bounds_of_mem_preorder
      (fun other hother => hplaced other (Node.mem_preorder_of_mem_children hchild hother)) hinner⟩

/-- The own type syntax of a node lies in it. -/
theorem bounds_of_mem_ownSyntax {stretch : Nat × Nat} (h : stretch ∈ ownSyntax context root) :
    root.start ≤ stretch.1 ∧ stretch.2 ≤ root.stop := by
  have hrow := (hplaced root (Node.mem_preorder_self root)).inRow
  have hinside {child : Node} (hchild : child ∈ root.children) {stretch : Nat × Nat}
      (hstretch : child.start ≤ stretch.1 ∧ stretch.2 ≤ child.stop) :
      root.start ≤ stretch.1 ∧ stretch.2 ≤ root.stop := by
    obtain ⟨hstart, -, hstop⟩ := hrow.bounds hchild
    exact ⟨Nat.le_trans hstart hstretch.1, Nat.le_trans hstretch.2 hstop⟩
  unfold ownSyntax at h
  simp only [List.mem_append] at h
  rcases h with ((hmem | hmem) | hmem) | hmem
  · split at hmem
    · rw [List.mem_singleton.mp hmem]
      exact ⟨Nat.le_refl _, Nat.le_refl _⟩
    · exact absurd hmem List.not_mem_nil
  · obtain ⟨token, htoken, rfl⟩ := List.mem_map.mp hmem
    exact hinside (mem_children_of_mem_modifiers htoken) ⟨Nat.le_refl _, Nat.le_refl _⟩
  · -- in front of the operand, or behind it
    unfold besideOperand at hmem
    split at hmem
    · exact absurd hmem List.not_mem_nil
    · next operand hoperand =>
      obtain ⟨hstart, hle, hstop⟩ := hrow.bounds (mem_children_of_unwrapped hoperand)
      simp only [List.mem_cons, List.not_mem_nil, or_false] at hmem
      rcases hmem with rfl | rfl
      · exact ⟨Nat.le_refl _, Nat.le_trans hle hstop⟩
      · exact ⟨Nat.le_trans hstart hle, Nat.le_refl _⟩
  · obtain ⟨specifier, hspecifier, rfl⟩ := List.mem_map.mp hmem
    obtain ⟨clause, hclause, hinner⟩ := exists_clause_of_mem_typeSpecifiers hspecifier
    have hchild := mem_children_of_clause? hclause
    exact hinside hchild (Node.bounds_of_mem_preorder
      (fun other hother => hplaced other (Node.mem_preorder_of_mem_children hchild hother)) hinner)

/-- The type syntax of a tree lies in it. -/
theorem bounds_of_mem_typeSyntax {stretch : Nat × Nat} (h : stretch ∈ typeSyntax context root) :
    root.start ≤ stretch.1 ∧ stretch.2 ≤ root.stop := by
  obtain ⟨node, hnode, hown⟩ := List.mem_flatMap.mp h
  have hstretch := bounds_of_mem_ownSyntax
    (fun other hother => hplaced other (Node.preorder_subset hnode hother)) hown
  have hbounds := Node.bounds_of_mem_preorder hplaced hnode
  exact ⟨Nat.le_trans hbounds.1 hstretch.1, Nat.le_trans hstretch.2 hbounds.2⟩

end Layout

/-! ## §3. Exposed nodes -/

/-- The child is one that the own type syntax of the node does not reach into. -/
def Exposes (context : Context) (node child : Node) : Prop :=
  child ∈ node.children ∧ ∀ stretch ∈ ownSyntax context node, stretch.2 ≤ child.start ∨ child.stop ≤ stretch.1

/-- The node is reached from the root without a way into type syntax. -/
inductive Exposed (context : Context) (root : Node) : Node → Prop where
  | self : Exposed context root root
  | child {node child : Node} (h : Exposed context root node) (hchild : Exposes context node child) :
    Exposed context root child

theorem exposes_of_ownSyntax_eq_nil (hown : ownSyntax context node = []) (hchild : child ∈ node.children) :
    Exposes context node child := by
  refine ⟨hchild, ?_⟩
  rw [hown]
  exact fun _ hstretch => absurd hstretch List.not_mem_nil

theorem Exposed.mem_preorder (h : Exposed context root node) : node ∈ root.preorder := by
  induction h with
  | self => exact Node.mem_preorder_self root
  | child _ hchild ih => exact Node.mem_preorder_of_child ih hchild.1

section Layout

variable (hplaced : ∀ other ∈ root.preorder, other.InPlace context.source)
include hplaced

/-- **All type syntax of a tree lies in an exposed node or beside it.** -/
theorem Exposed.clear (h : Exposed context root node) :
    ∀ stretch ∈ typeSyntax context root,
      (stretch.2 ≤ node.start ∨ node.stop ≤ stretch.1) ∨ stretch ∈ typeSyntax context node := by
  induction h with
  | self => exact fun stretch hstretch => .inr hstretch
  | @child node child h hchild ih =>
    have hnode := h.mem_preorder
    have hinside {other : Node} (hother : other ∈ node.preorder) : other.InPlace context.source :=
      hplaced other (Node.preorder_subset hnode hother)
    obtain ⟨hmem, hown⟩ := hchild
    have hrow := (hplaced node hnode).inRow
    obtain ⟨hstart, -, hstop⟩ := hrow.bounds hmem
    intro stretch hstretch
    rcases ih stretch hstretch with hbeside | hwithin
    · exact .inl (hbeside.imp (Nat.le_trans · hstart) (Nat.le_trans hstop ·))
    · -- what lies in the node belongs to itself, or lies in one of its children
      obtain ⟨owner, howner, hstretch⟩ := List.mem_flatMap.mp hwithin
      rw [Node.preorder_eq] at howner
      rcases List.mem_cons.mp howner with rfl | howner
      · exact .inl (hown stretch hstretch)
      · obtain ⟨_, hmap, howner⟩ := List.mem_flatten.mp howner
        obtain ⟨sibling, hsibling, rfl⟩ := List.mem_map.mp hmap
        have hlies : stretch ∈ typeSyntax context sibling := List.mem_flatMap.mpr ⟨owner, howner, hstretch⟩
        have hbounds := bounds_of_mem_typeSyntax
          (fun other hother => hinside (Node.mem_preorder_of_mem_children hsibling hother)) hlies
        rcases hrow.eq_or_apart hsibling hmem with rfl | hfront | hbehind
        · exact .inr hlies
        · exact .inl (.inl (Nat.le_trans hbounds.2 hfront))
        · exact .inl (.inr (Nat.le_trans hbehind hbounds.1))

/-- **No type syntax stands between the children of an exposed node**, if it is neither type syntax as a
whole nor an assertion. -/
theorem Exposed.clear_of_mem_spans (h : Exposed context root node) (hconstruct : isTypeConstruct node = false)
    (hoperand : unwrapped? node = none) :
    ∀ span ∈ Node.spans node.stop node.start node.children, Clear context root span.1 span.2 := by
  have hnode := h.mem_preorder
  have hinside {other : Node} (hother : other ∈ node.preorder) : other.InPlace context.source :=
    hplaced other (Node.preorder_subset hnode hother)
  have hrow := (hplaced node hnode).inRow
  intro span hspan stretch hstretch
  obtain ⟨hstart, -, hstop⟩ := Node.bounds_of_mem_spans hrow span hspan
  rcases h.clear hplaced stretch hstretch with hbeside | hwithin
  · exact hbeside.imp (Nat.le_trans · hstart) (Nat.le_trans hstop ·)
  · -- the stretch lies in one of the children, and the gap beside it
    have hchild : ∃ child ∈ node.children, child.start ≤ stretch.1 ∧ stretch.2 ≤ child.stop := by
      obtain ⟨owner, howner, hown⟩ := List.mem_flatMap.mp hwithin
      rw [Node.preorder_eq] at howner
      rcases List.mem_cons.mp howner with rfl | howner
      · exact exists_child_of_mem_ownSyntax (fun other => hinside) hconstruct hoperand hown
      · obtain ⟨_, hmap, howner⟩ := List.mem_flatten.mp howner
        obtain ⟨child, hchild, rfl⟩ := List.mem_map.mp hmap
        exact ⟨child, hchild, bounds_of_mem_typeSyntax
          (fun other hother => hinside (Node.mem_preorder_of_mem_children hchild hother))
          (List.mem_flatMap.mpr ⟨owner, howner, hown⟩)⟩
    obtain ⟨child, hchild, hbounds⟩ := hchild
    rcases Node.apart_of_mem_spans hrow hchild span hspan with hfront | hbehind
    · exact .inl (Nat.le_trans hbounds.2 hfront)
    · exact .inr (Nat.le_trans hbehind hbounds.1)

end Layout

end LivePreview.Lowering
