/-
  LivePreview.Proofs.Lowering.Types.Alike
  ───────────────────────────────────────
  **Nodes that differ in their types only.**

  Types stand in nodes of the removed kinds (`isErased`), and beside the expression in
  an ascription or an assertion (`isTyped`).  The outline of a tree (`outline`) holds
  every other node with its kind, its role and the text between its children, but no
  offsets, so trees that differ in their types have the same outline although the rest
  of the one lies at other places than the rest of the other.  A tree is lowered without a
  visit to what stands in its types (`visited`).

  Two nodes are *alike* if they have one outline, if both are regular, that is, laid out
  in their sources and formed as the rules for them expect, and if no types stand in what
  the rules copy from the source in one piece (`Alike`).  The parts of alike nodes are
  alike, and those without types in them have the same text (`Alike.text_eq`).
-/
import LivePreview.Lowering.Depth
import LivePreview.Proofs.Lowering.Emission
import LivePreview.Proofs.Pairwise
import LivePreview.Proofs.Syntax.Layout

namespace LivePreview

/-! ## §1. Constructs among the children -/

/-- The results for the constructs are those of the constructs. -/
theorem Lowering.namedResults_map {α : Type} (node : Syntax.Node) (f : Syntax.Node → α) :
    namedResults node (node.children.map f) = node.namedChildren.map f := by
  unfold namedResults Syntax.Node.namedChildren
  induction node.children with
  | nil => rfl
  | cons child children ih =>
    rw [List.map_cons, List.zip_cons_cons, List.filter_cons, List.filter_cons]
    split
    · rw [List.map_cons, List.map_cons, ih]
    · exact ih

namespace Lowering

open LivePreview.Syntax (Node)

/-! ## §2. Types -/

/-- The kinds of expressions with a type behind them. -/
def ascriptionKinds : List String :=
  ["as_expression", "satisfies_expression", "instantiation_expression"]

/-- The node leaves no code, since it is a type. -/
def isErased (node : Node) : Bool :=
  removedKinds.contains node.kind

/-- The node holds an expression and a type: the expression stands in front of the type in an
ascription, and behind it in an assertion.  A conversion to a constant is no type. -/
def isTyped (node : Node) : Bool :=
  (ascriptionKinds.contains node.kind || node.kind == "type_assertion")
    && 2 ≤ (node.namedChildren.filter (·.kind != "comment")).length

/-- No type stands in the node beside those in its children. -/
def isPlain (node : Node) : Bool :=
  !isErased node && !isTyped node

theorem isErased_of_isPlain {node : Node} (h : isPlain node = true) : isErased node = false := by
  unfold isPlain at h
  exact (Bool.not_eq_true' _).mp (Bool.and_eq_true_iff.mp h).1

theorem isTyped_of_isPlain {node : Node} (h : isPlain node = true) : isTyped node = false := by
  unfold isPlain at h
  exact (Bool.not_eq_true' _).mp (Bool.and_eq_true_iff.mp h).2

theorem kind_of_isTyped {node : Node} (h : isTyped node = true) :
    (node.kind = "as_expression" ∨ node.kind = "satisfies_expression" ∨
      node.kind = "instantiation_expression") ∨ node.kind = "type_assertion" := by
  unfold isTyped ascriptionKinds at h
  have hkind := (Bool.and_eq_true_iff.mp h).1
  simpa only [List.contains_cons, List.contains_nil, Bool.or_false, Bool.or_eq_true, beq_iff_eq] using hkind

/-- An ascription is a wrapper, and an assertion is none. -/
theorem wrapper_of_isTyped {node : Node} (h : isTyped node = true) :
    wrapperKinds.contains node.kind = true ∧ (node.kind == "type_assertion") = false ∨
      wrapperKinds.contains node.kind = false ∧ (node.kind == "type_assertion") = true := by
  rcases kind_of_isTyped h with (hkind | hkind | hkind) | hkind <;> rw [hkind] <;> decide

/-- The removed kinds are no expressions. -/
theorem isErased_of_isTyped {node : Node} (h : isTyped node = true) : isErased node = false := by
  unfold isErased
  rcases kind_of_isTyped h with (hkind | hkind | hkind) | hkind <;> rw [hkind] <;> decide

/-- A node whose kind is neither removed nor that of an expression with a type is plain. -/
theorem isPlain_of_kind {node : Node} {kind : String} (hkind : node.kind = kind)
    (h : (removedKinds ++ ascriptionKinds ++ ["type_assertion"]).contains kind = false) :
    isPlain node = true := by
  rw [List.contains_append, List.contains_append, Bool.or_eq_false_iff, Bool.or_eq_false_iff] at h
  obtain ⟨⟨hremoved, hascription⟩, hassertion⟩ := h
  rw [List.contains_cons, List.contains_nil, Bool.or_false] at hassertion
  unfold isPlain isErased isTyped
  rw [hkind, hremoved, hascription, hassertion]
  rfl

/-- The result for the expression in a node with a type, given those for the constructs. -/
def keptAmong {α : Type} (node : Node) (named : List α) : Option α :=
  if node.kind == "type_assertion" then named.getLast? else named.head?

/-- There are types in the node. -/
def holdsTypes : Node → Bool :=
  Node.fold fun node results => !isPlain node || results.any id

/-- The nodes of the tree that are no types and do not stand in types, and those that stand for
the types. -/
def visited : Node → List Node :=
  Node.fold fun node results =>
    node ::
      if isErased node then []
      else if isTyped node then (keptAmong node (namedResults node results)).getD []
      else results.flatten

/-! ## §3. Outlines -/

/-- A tree without its types. -/
inductive Outline where
  | erased (kind : String) (isNamed : Bool) (field? : Option String)
  | typed (kind : String) (isNamed : Bool) (field? : Option String) (kept? : Option Outline)
  | plain (kind : String) (isNamed : Bool) (field? : Option String) (gaps : List String)
      (children : List Outline)

/-- The outline of a node, given those of its children. -/
def outlineOver (source : String) (node : Node) (below : List Outline) : Outline :=
  if isErased node then .erased node.kind node.isNamed node.field?
  else if isTyped node then
    .typed node.kind node.isNamed node.field? (keptAmong node (namedResults node below))
  else
    .plain node.kind node.isNamed node.field?
      (Node.gaps source node.stop node.start node.children) below

/-- The outline of a tree. -/
def outline (source : String) : Node → Outline :=
  Node.fold (outlineOver source)

namespace Outline

/-- The kind of the node. -/
def kind : Outline → String
  | erased kind _ _ | typed kind _ _ _ | plain kind _ _ _ _ => kind

/-- The node is a construct of the grammar. -/
def isNamed : Outline → Bool
  | erased _ isNamed _ | typed _ isNamed _ _ | plain _ isNamed _ _ _ => isNamed

/-- The role of the node. -/
def field? : Outline → Option String
  | erased _ _ field? | typed _ _ field? _ | plain _ _ field? _ _ => field?

/-- The node holds an expression and a type. -/
def isTyped : Outline → Bool
  | typed _ _ _ _ => true
  | _ => false

/-- The expression beside the type. -/
def kept? : Outline → Option Outline
  | typed _ _ _ kept? => kept?
  | _ => none

/-- The text between the children. -/
def gaps : Outline → List String
  | plain _ _ _ gaps _ => gaps
  | _ => []

/-- The children of a node that is no type and holds none beside them. -/
def children : Outline → List Outline
  | plain _ _ _ _ children => children
  | _ => []

end Outline

/-- The expression in a node with a type. -/
def kept? (node : Node) : Option Node :=
  keptAmong node node.namedChildren

theorem keptAmong_map {α β : Type} (node : Node) (f : α → β) (named : List α) :
    keptAmong node (named.map f) = (keptAmong node named).map f := by
  unfold keptAmong
  split
  · exact List.getLast?_map
  · exact List.head?_map

theorem mem_of_kept? {node kept : Node} (h : kept? node = some kept) : kept ∈ node.children := by
  unfold kept? keptAmong at h
  split at h
  · exact (List.mem_filter.mp (List.mem_of_getLast? h)).1
  · exact (List.mem_filter.mp (List.mem_of_head? h)).1

/-- The outline of a node follows from those of the nodes in it. -/
theorem outline_eq (source : String) (node : Node) :
    outline source node =
      if isErased node then .erased node.kind node.isNamed node.field?
      else if isTyped node then
        .typed node.kind node.isNamed node.field? ((kept? node).map (outline source))
      else
        .plain node.kind node.isNamed node.field?
          (Node.gaps source node.stop node.start node.children) (node.children.map (outline source)) := by
  unfold outline
  rw [Node.fold_eq]
  unfold outlineOver
  rw [namedResults_map, keptAmong_map]
  rfl

theorem outline_of_isErased {source : String} {node : Node} (h : isErased node = true) :
    outline source node = .erased node.kind node.isNamed node.field? := by
  rw [outline_eq, if_pos h]

theorem outline_of_isTyped {source : String} {node : Node} (h : isTyped node = true) :
    outline source node =
      .typed node.kind node.isNamed node.field? ((kept? node).map (outline source)) := by
  rw [outline_eq, if_neg (by rw [isErased_of_isTyped h]; exact Bool.false_ne_true), if_pos h]

theorem outline_of_isPlain {source : String} {node : Node} (h : isPlain node = true) :
    outline source node =
      .plain node.kind node.isNamed node.field?
        (Node.gaps source node.stop node.start node.children) (node.children.map (outline source)) := by
  rw [outline_eq, if_neg (by rw [isErased_of_isPlain h]; exact Bool.false_ne_true),
    if_neg (by rw [isTyped_of_isPlain h]; exact Bool.false_ne_true)]

/-- A node is a type, or holds one beside its expression, or is plain. -/
theorem isErased_or_isTyped_or_isPlain (node : Node) :
    isErased node = true ∨ isTyped node = true ∨ isPlain node = true := by
  unfold isPlain
  cases isErased node <;> cases isTyped node <;> simp

/-- The outline keeps what a node is. -/
theorem header_outline (source : String) (node : Node) :
    (outline source node).kind = node.kind ∧ (outline source node).isNamed = node.isNamed ∧
      (outline source node).field? = node.field? := by
  rcases isErased_or_isTyped_or_isPlain node with h | h | h
  · rw [outline_of_isErased h]
    exact ⟨rfl, rfl, rfl⟩
  · rw [outline_of_isTyped h]
    exact ⟨rfl, rfl, rfl⟩
  · rw [outline_of_isPlain h]
    exact ⟨rfl, rfl, rfl⟩

theorem isTyped_outline (source : String) (node : Node) :
    (outline source node).isTyped = isTyped node := by
  cases htyped : isTyped node with
  | true => rw [outline_of_isTyped htyped]; rfl
  | false =>
    rw [outline_eq, htyped, if_neg Bool.false_ne_true]
    split <;> rfl

theorem visited_eq (node : Node) :
    visited node =
      node ::
        if isErased node then []
        else if isTyped node then ((kept? node).map visited).getD []
        else (node.children.map visited).flatten := by
  unfold visited
  rw [Node.fold_eq, namedResults_map, keptAmong_map]
  rfl

theorem mem_visited_self (node : Node) : node ∈ visited node := by
  rw [visited_eq]
  exact List.mem_cons_self

theorem mem_visited_of_kept? {node kept other : Node} (htyped : isTyped node = true)
    (hkept : kept? node = some kept) (h : other ∈ visited kept) : other ∈ visited node := by
  rw [visited_eq, if_neg (by rw [isErased_of_isTyped htyped]; exact Bool.false_ne_true),
    if_pos htyped, hkept]
  exact List.mem_cons_of_mem _ h

theorem mem_visited_of_mem_children {node child other : Node} (hplain : isPlain node = true)
    (hchild : child ∈ node.children) (h : other ∈ visited child) : other ∈ visited node := by
  rw [visited_eq, if_neg (by rw [isErased_of_isPlain hplain]; exact Bool.false_ne_true),
    if_neg (by rw [isTyped_of_isPlain hplain]; exact Bool.false_ne_true)]
  exact List.mem_cons_of_mem _ (List.mem_flatten.mpr ⟨_, List.mem_map_of_mem hchild, h⟩)

/-- What is visited is part of the tree. -/
theorem mem_preorder_of_mem_visited {node other : Node} (h : other ∈ visited node) :
    other ∈ node.preorder := by
  induction node using Syntax.Node.forall_of_children with
  | h node ih =>
    rw [visited_eq] at h
    rcases List.mem_cons.mp h with rfl | h
    · exact Node.mem_preorder_self _
    · -- nothing is visited in a type, and beside one only the expression
      split at h
      · exact absurd h List.not_mem_nil
      · split at h
        · cases hkept : kept? node with
          | none =>
            rw [hkept] at h
            exact absurd h List.not_mem_nil
          | some kept =>
            rw [hkept] at h
            have hmem := mem_of_kept? hkept
            exact Node.mem_preorder_of_mem_children hmem (ih kept hmem h)
        · obtain ⟨_, hmap, h⟩ := List.mem_flatten.mp h
          obtain ⟨child, hchild, rfl⟩ := List.mem_map.mp hmap
          exact Node.mem_preorder_of_mem_children hchild (ih child hchild h)

theorem holdsTypes_eq (node : Node) :
    holdsTypes node = (!isPlain node || (node.children.map holdsTypes).any id) :=
  Node.fold_eq _ node

/-- A node without types is plain, and so are the nodes in it. -/
theorem holdsTypes_eq_false_iff {node : Node} :
    holdsTypes node = false ↔
      isPlain node = true ∧ ∀ child ∈ node.children, holdsTypes child = false := by
  rw [holdsTypes_eq, Bool.or_eq_false_iff, Bool.not_eq_false', List.any_map, List.any_eq_false]
  simp only [Function.comp_apply, id_eq, Bool.not_eq_true]

end Lowering

end LivePreview

namespace LivePreview.Lowering

open LivePreview.Syntax (Node)

/-! ## §4. Parts with rules of their own -/

/-- The children in a role. -/
def childrenIn (name : String) (node : Node) : List Node :=
  node.children.filter (·.field? == some name)

theorem mem_childrenIn_of_childByField? {name : String} {node child : Node}
    (h : node.childByField? name = some child) : child ∈ childrenIn name node := by
  have hfield := List.find?_some h
  exact List.mem_filter.mpr ⟨List.mem_of_find?_eq_some h, hfield⟩

/-- The tag in front of the content of an element. -/
def openingTag? (node : Node) : Option Node :=
  node.childByField? "open_tag" <|> node.children.head?

/-- The tag behind the content of an element. -/
def closingTag? (node : Node) : Option Node :=
  node.childByField? "close_tag" <|> node.children.getLast?

/-- The parts that the rule for a node takes apart itself. -/
def openParts (node : Node) : List Node :=
  match node.kind with
  | "call_expression" => childrenIn "arguments" node
  | "method_definition" => childrenIn "parameters" node ++ childrenIn "body" node
  | "enum_declaration" => childrenIn "body" node
  | "jsx_element" => (openingTag? node).toList
  | _ => []

/-- The parts that the content of an element stands between. -/
def contentEdges (node : Node) : List Node :=
  match node.kind with
  | "jsx_element" => (openingTag? node).toList ++ (closingTag? node).toList
  | "jsx_fragment" => node.children[1]?.toList ++ node.children.reverse[2]?.toList
  | _ => []

/-- The node is a member of an enumeration that is but a name. -/
def isBareName (member : Node) : Bool :=
  ["property_identifier", "string", "identifier"].contains member.kind

/-- The node is part of the text between the children of an element. -/
def isRunPart (child : Node) : Bool :=
  !child.isNamed || child.kind == "jsx_text" || child.kind == "html_character_reference"

/-- The names that the parameters of a method bind. -/
def parameterNames (method : Node) : List Node :=
  (((method.childByField? "parameters").map Node.namedChildren).getD []).filterMap fun parameter =>
    (parameter.childByField? "pattern").filter (·.kind == "identifier")

/-- The parts whose text the rule for a node copies, or reads, in one piece: clauses and sources,
names and keys, literals, and the text between elements. -/
def wholeParts (node : Node) : List Node :=
  match node.kind with
  | "import_statement" =>
    (node.childByField? "source").toList
      ++ (node.namedChildren.find? (·.kind == "import_clause")).toList
  | "export_statement" =>
    (node.childByField? "source").toList
      ++ (node.namedChildren.find? (·.kind == "export_clause")).toList
  | "call_expression" => (importedLiteral? node).toList
  | "method_definition" => (node.childByField? "name").toList ++ parameterNames node
  | "enum_declaration" =>
    (node.childByField? "name").toList
      ++ (((node.childByField? "body").map Node.namedChildren).getD []).filter isBareName
  | "enum_assignment" =>
    (node.childByField? "name" <|> node.namedChildren.head?).toList
      ++ ((node.childByField? "value" <|> node.namedChildren.getLast?).filter
        (·.kind == "number")).toList
  | "jsx_attribute" =>
    node.namedChildren.head?.toList
      ++ (node.namedChildren[1]?.filter fun value =>
        value.kind == "string" || value.kind == "jsx_string").toList
  | "jsx_self_closing_element" => (node.childByField? "name").toList
  | "jsx_element" =>
    ((openingTag? node).bind (·.childByField? "name")).toList ++ node.children.filter isRunPart
  | "jsx_fragment" => node.children.filter isRunPart
  | _ => []

/-- The node is laid out in the source, what its rule takes apart is no type, and the content of
an element stands between tags that are not empty. -/
structure IsRegular (source : String) (node : Node) : Prop where
  inPlace : node.InPlace source
  isPlain_of_mem_openParts : ∀ part ∈ openParts node, isPlain part = true
  lt_of_mem_contentEdges : ∀ edge ∈ contentEdges node, edge.start < edge.stop

instance (source : String) (node : Node) : Decidable (IsRegular source node) :=
  decidable_of_iff
    (node.InPlace source ∧ (∀ part ∈ openParts node, isPlain part = true) ∧
      ∀ edge ∈ contentEdges node, edge.start < edge.stop)
    ⟨fun ⟨hplace, hopen, hedge⟩ => ⟨hplace, hopen, hedge⟩, fun ⟨hplace, hopen, hedge⟩ => ⟨hplace, hopen, hedge⟩⟩

/-- Nothing that is copied in one piece has types in it. -/
def CopiesNoTypes (node : Node) : Prop :=
  ∀ part ∈ wholeParts node, holdsTypes part = false

instance (node : Node) : Decidable (CopiesNoTypes node) :=
  inferInstanceAs (Decidable (∀ part ∈ wholeParts node, holdsTypes part = false))

/-! ## §5. Alike nodes -/

/-- The nodes have one outline, and whatever is visited in them is regular and copies no types. -/
structure Alike (source other : String) (a b : Node) : Prop where
  outline_eq : outline source a = outline other b
  regular : ∀ node ∈ visited a, IsRegular source node ∧ CopiesNoTypes node
  regular' : ∀ node ∈ visited b, IsRegular other node ∧ CopiesNoTypes node

namespace Alike

variable {source other : String} {a b : Node}

theorem kind_eq (h : Alike source other a b) : a.kind = b.kind := by
  have hkind := congrArg Outline.kind h.outline_eq
  rwa [(header_outline source a).1, (header_outline other b).1] at hkind

theorem isNamed_eq (h : Alike source other a b) : a.isNamed = b.isNamed := by
  have hnamed := congrArg Outline.isNamed h.outline_eq
  rwa [(header_outline source a).2.1, (header_outline other b).2.1] at hnamed

theorem field?_eq (h : Alike source other a b) : a.field? = b.field? := by
  have hfield := congrArg Outline.field? h.outline_eq
  rwa [(header_outline source a).2.2, (header_outline other b).2.2] at hfield

theorem isErased_eq (h : Alike source other a b) : isErased a = isErased b := by
  unfold isErased
  rw [h.kind_eq]

theorem isTyped_eq (h : Alike source other a b) : isTyped a = isTyped b := by
  have htyped := congrArg Outline.isTyped h.outline_eq
  rwa [isTyped_outline, isTyped_outline] at htyped

theorem isPlain_eq (h : Alike source other a b) : isPlain a = isPlain b := by
  unfold isPlain
  rw [h.isErased_eq, h.isTyped_eq]

theorem self (h : Alike source other a b) :
    (IsRegular source a ∧ CopiesNoTypes a) ∧ IsRegular other b ∧ CopiesNoTypes b :=
  ⟨h.regular a (mem_visited_self a), h.regular' b (mem_visited_self b)⟩

/-- The gaps in plain nodes are the same. -/
theorem gaps_eq (h : Alike source other a b) (hplain : isPlain a = true) :
    Node.gaps source a.stop a.start a.children = Node.gaps other b.stop b.start b.children := by
  have hgaps := congrArg Outline.gaps h.outline_eq
  rwa [outline_of_isPlain hplain, outline_of_isPlain (h.isPlain_eq ▸ hplain)] at hgaps

/-- The children of plain nodes are alike. -/
theorem children (h : Alike source other a b) (hplain : isPlain a = true) :
    List.Forall₂ (Alike source other) a.children b.children := by
  have hplain' : isPlain b = true := h.isPlain_eq ▸ hplain
  have hchildren := congrArg Outline.children h.outline_eq
  rw [outline_of_isPlain hplain, outline_of_isPlain hplain'] at hchildren
  have hpairs : List.Forall₂ (fun c d => outline source c = outline other d) a.children b.children :=
    forall₂_of_map_eq hchildren
  -- what is visited in a child is visited in the node
  refine (forall₂_zip hpairs).imp fun c d ⟨hmem, heq⟩ => ⟨heq, fun node hnode => ?_, fun node hnode => ?_⟩
  · exact h.regular node (mem_visited_of_mem_children hplain (List.of_mem_zip hmem).1 hnode)
  · exact h.regular' node (mem_visited_of_mem_children hplain' (List.of_mem_zip hmem).2 hnode)

/-- The expressions beside the types are alike. -/
theorem kept (h : Alike source other a b) (htyped : isTyped a = true) :
    Option.Rel (Alike source other) (kept? a) (kept? b) := by
  have htyped' : isTyped b = true := h.isTyped_eq ▸ htyped
  have hkept := congrArg Outline.kept? h.outline_eq
  rw [outline_of_isTyped htyped, outline_of_isTyped htyped'] at hkept
  replace hkept : (kept? a).map (outline source) = (kept? b).map (outline other) := hkept
  cases ha : kept? a with
  | none =>
    rw [ha, Option.map_none] at hkept
    rw [Option.map_eq_none_iff.mp hkept.symm]
    exact .none
  | some c =>
    rw [ha, Option.map_some] at hkept
    obtain ⟨d, hb, heq⟩ := Option.map_eq_some_iff.mp hkept.symm
    rw [hb]
    exact .some ⟨heq.symm, fun node hnode => h.regular node (mem_visited_of_kept? htyped ha hnode),
      fun node hnode => h.regular' node (mem_visited_of_kept? htyped' hb hnode)⟩

/-- **Alike nodes without types in them have the same text.** -/
theorem text_eq (h : Alike source other a b) (htypes : holdsTypes a = false) :
    a.text source = b.text other := by
  induction a using Syntax.Node.forall_of_children generalizing b with
  | h a ih =>
    obtain ⟨hplain, hchildren⟩ := holdsTypes_eq_false_iff.mp htypes
    obtain ⟨⟨⟨hplace, -, -⟩, -⟩, ⟨hplace', -, -⟩, -⟩ := h.self
    have hpairs := h.children hplain
    -- both texts are made up of the same gaps and, by induction, of the same texts of the children
    refine (Node.sameStretch_of_gaps hplace.start_isBoundary hplace'.start_isBoundary
      hplace.stop_isBoundary hplace'.stop_isBoundary hplace.inRow hplace'.inRow (h.gaps_eq hplain)
      (fun node hnode => ?_) (fun node hnode => ?_) ?_).slice_eq
    · exact (h.regular node (mem_visited_of_mem_children hplain hnode (mem_visited_self node))).1.inPlace
    · exact (h.regular' node
        (mem_visited_of_mem_children (h.isPlain_eq ▸ hplain) hnode (mem_visited_self node))).1.inPlace
    · refine (forall₂_zip hpairs).imp fun c d ⟨hmem, halike⟩ => ?_
      have hc := (List.of_mem_zip hmem).1
      exact ih c hc halike (hchildren c hc)

/-! ## §6. Parts of alike nodes -/

theorem namedChildren (h : Alike source other a b) (hplain : isPlain a = true) :
    List.Forall₂ (Alike source other) a.namedChildren b.namedChildren :=
  forall₂_filter (h.children hplain) fun _ _ hpart => hpart.isNamed_eq

theorem childByField? (h : Alike source other a b) (hplain : isPlain a = true) (name : String) :
    Option.Rel (Alike source other) (a.childByField? name) (b.childByField? name) :=
  rel_find? (h.children hplain) fun _ _ hpart => by rw [hpart.field?_eq]

theorem isToken_eq (h : Alike source other a b) (kind : String) : a.isToken kind = b.isToken kind := by
  unfold Node.isToken
  rw [h.isNamed_eq, h.kind_eq]

theorem hasToken_eq (h : Alike source other a b) (hplain : isPlain a = true) (kind : String) :
    a.hasToken kind = b.hasToken kind :=
  any_eq_of_forall₂ (h.children hplain) fun _ _ hpart => hpart.isToken_eq kind

/-- The first construct of a kind. -/
theorem find?_kind (h : Alike source other a b) (hplain : isPlain a = true) (kind : String) :
    Option.Rel (Alike source other) (a.namedChildren.find? (·.kind == kind))
      (b.namedChildren.find? (·.kind == kind)) :=
  rel_find? (h.namedChildren hplain) fun _ _ hpart => by rw [hpart.kind_eq]

end Alike

/-! ## §7. Parts without types -/

/-- The nodes are alike, and there are no types in them. -/
structure AlikeWhole (source other : String) (a b : Node) : Prop where
  alike : Alike source other a b
  holdsTypes_eq_false : holdsTypes a = false

/-- Parts that are copied in one piece have no types in them. -/
theorem Alike.whole {source other : String} {a b : Node} (h : Alike source other a b) {part part' : Node}
    (hpart : part ∈ wholeParts a) (halike : Alike source other part part') :
    AlikeWhole source other part part' :=
  ⟨halike, h.self.1.2 part hpart⟩

theorem Alike.rel_whole {source other : String} {a b : Node} (h : Alike source other a b)
    {part part' : Option Node} (hrel : Option.Rel (Alike source other) part part')
    (hmem : part.toList ⊆ wholeParts a) : Option.Rel (AlikeWhole source other) part part' := by
  cases hrel with
  | none => exact .none
  | some halike => exact .some (h.whole (hmem (Option.mem_toList.mpr rfl)) halike)

namespace AlikeWhole

variable {source other : String} {a b : Node}

theorem text_eq (h : AlikeWhole source other a b) : a.text source = b.text other :=
  h.alike.text_eq h.holdsTypes_eq_false

theorem isPlain (h : AlikeWhole source other a b) : isPlain a = true :=
  (holdsTypes_eq_false_iff.mp h.holdsTypes_eq_false).1

theorem children (h : AlikeWhole source other a b) :
    List.Forall₂ (AlikeWhole source other) a.children b.children :=
  (forall₂_zip (h.alike.children h.isPlain)).imp fun child _ ⟨hmem, halike⟩ =>
    ⟨halike, (holdsTypes_eq_false_iff.mp h.holdsTypes_eq_false).2 child (List.of_mem_zip hmem).1⟩

theorem namedChildren (h : AlikeWhole source other a b) :
    List.Forall₂ (AlikeWhole source other) a.namedChildren b.namedChildren :=
  forall₂_filter h.children fun _ _ hpart => hpart.alike.isNamed_eq

theorem childByField? (h : AlikeWhole source other a b) (name : String) :
    Option.Rel (AlikeWhole source other) (a.childByField? name) (b.childByField? name) :=
  rel_find? h.children fun _ _ hpart => by rw [hpart.alike.field?_eq]

end AlikeWhole

end LivePreview.Lowering
