/-
  LivePreview.Proofs.Lowering.Emitted.Parts
  ─────────────────────────────────────────
  **Which nodes of a tree are emitted.**

  The rule for a node emits some of the nodes in it, each of them once (`emittedParts`): it
  leaves out types, the tokens that are dropped, and what it puts a text or a placeholder in
  place of.  A node of a tree is emitted if it is reached from there through such parts
  (`Emits`):

      source    f(a as T, import("b"))
      emitted   f ( a , import )            and the nodes around them, but neither T nor "b"

  A part of a node lies in one of its children, so that proofs about all that a tree emits go
  from the parts to the node (`forall_of_parts`).
-/
import LivePreview.Proofs.Lowering.Enumeration

namespace LivePreview.Lowering

open LivePreview.Syntax (Node)

/-! ## §1. Places -/

/-- A child of a node, and the nodes that are emitted in its place. -/
structure Place where
  node : Node
  parts : List Node

namespace Place

/-- The place of a child that is emitted itself. -/
def ofNode (node : Node) : Place :=
  ⟨node, [node]⟩

/-- Exchange what is emitted in the place of the first child that satisfies a condition. -/
def exchangeFirst (q : Node → Bool) (parts : Node → List Node) : List Place → List Place
  | [] => []
  | place :: places =>
    if q place.node then ⟨place.node, parts place.node⟩ :: places
    else place :: exchangeFirst q parts places

/-- Exchange what is emitted in the places of all children that satisfy a condition. -/
def exchangeEach (q : Node → Bool) (parts : Node → List Node) (places : List Place) : List Place :=
  places.map fun place => if q place.node then ⟨place.node, parts place.node⟩ else place

/-- All that is emitted in some places. -/
def partsOf (places : List Place) : List Node :=
  places.flatMap parts

theorem partsOf_map_ofNode (nodes : List Node) : partsOf (nodes.map ofNode) = nodes := by
  unfold partsOf
  rw [List.flatMap_map]
  exact List.flatMap_singleton' nodes

/-- To exchange a child for itself changes nothing. -/
theorem exchangeFirst_self (q : Node → Bool) (nodes : List Node) :
    exchangeFirst q (fun node => [node]) (nodes.map ofNode) = nodes.map ofNode := by
  induction nodes with
  | nil => rfl
  | cons node nodes ih =>
    rw [List.map_cons, exchangeFirst, ih]
    exact ite_self _

theorem exchangeFirst_of_forall {q : Node → Bool} {parts : Node → List Node} {places : List Place}
    (h : ∀ place ∈ places, q place.node = false) : exchangeFirst q parts places = places := by
  induction places with
  | nil => rfl
  | cons place places ih =>
    obtain ⟨hplace, hrest⟩ := List.forall_mem_cons.mp h
    rw [exchangeFirst, if_neg (by rw [hplace]; exact Bool.false_ne_true), ih hrest]

/-- Without the children that satisfy a condition the others are left. -/
theorem partsOf_exchangeEach_nil (q : Node → Bool) (nodes : List Node) :
    partsOf (exchangeEach q (fun _ => []) (nodes.map ofNode)) = nodes.filter (!q ·) := by
  induction nodes with
  | nil => rfl
  | cons node nodes ih =>
    unfold exchangeEach partsOf at ih ⊢
    rw [List.map_cons, List.map_cons, List.flatMap_cons, ih, List.filter_cons]
    cases hq : q node with
    | true => rw [if_pos (by exact hq)]; rfl
    | false => rw [if_neg (by rw [ofNode, hq]; exact Bool.false_ne_true)]; rfl

/-- What is emitted in some place stems from the place or has been exchanged. -/
theorem mem_partsOf_exchangeFirst {q : Node → Bool} {parts : Node → List Node} {places : List Place}
    {part : Node} (h : part ∈ partsOf (exchangeFirst q parts places)) :
    part ∈ partsOf places ∨ ∃ place ∈ places, part ∈ parts place.node := by
  induction places with
  | nil => exact .inl h
  | cons place places ih =>
    unfold exchangeFirst at h
    have hbehind {first : Place} (hmem : part ∈ partsOf places) : part ∈ partsOf (first :: places) :=
      List.mem_append_right _ hmem
    split at h
    · rcases List.mem_append.mp h with hmem | hmem
      · exact .inr ⟨place, List.mem_cons_self, hmem⟩
      · exact .inl (hbehind hmem)
    · rcases List.mem_append.mp h with hmem | hmem
      · exact .inl (List.mem_append_left _ hmem)
      · exact (ih hmem).imp hbehind fun ⟨other, hother, hpart⟩ => ⟨other, List.mem_cons_of_mem _ hother, hpart⟩

end Place

/-! ## §2. Statements, calls and constructors -/

/-- The parts of an import or export that is kept: its clause is a text and its source a placeholder. -/
def statementParts (clauseKind : String) (node : Node) : List Node :=
  Place.partsOf (Place.exchangeFirst (·.field? == some "source") (fun _ => [])
    (Place.exchangeFirst (fun child => child.isNamed && child.kind == clauseKind) (fun _ => [])
      (node.children.map Place.ofNode)))

/-- The parts of a list of arguments whose first one is a placeholder. -/
def argumentParts (arguments : Node) : List Node :=
  Place.partsOf (Place.exchangeFirst (·.isNamed) (fun _ => []) (arguments.children.map Place.ofNode))

/-- The parts of a call. -/
def callParts (node : Node) : List Node :=
  match importedLiteral? node with
  | none => node.children
  | some _ =>
    Place.partsOf (Place.exchangeFirst (·.field? == some "arguments") argumentParts
      (node.children.map Place.ofNode))

/-- The children that are no tokens which the node loses. -/
def keptChildren (node : Node) : List Node :=
  node.children.filter fun child => !(!child.isNamed && (droppedTokens node.kind).contains child.kind)

/-- The parts of the body of a constructor, whose braces may be a text. -/
def bodyParts (body : Node) : List Node :=
  if body.namedChildren.head?.any isSuperCall then body.children
  else body.children.filter fun child => !(!child.isNamed && ["\x7b"].contains child.kind)

/-- The parts of a method. -/
def methodParts (context : Context) (node : Node) : List Node :=
  if assignsProperties context node then
    Place.partsOf (Place.exchangeFirst (·.field? == some "body") bodyParts (node.children.map Place.ofNode))
  else keptChildren node

/-! ## §3. Elements -/

/-- The expression in braces, if there is more than comments. -/
def expressionIn? (node : Node) : Option Node :=
  node.namedChildren.find? (·.kind != "comment")

/-- The parts of the value of an attribute. -/
def valueParts (value : Node) : List Node :=
  if value.kind == "string" || value.kind == "jsx_string" then []
  else if value.kind == "jsx_expression" then (expressionIn? value).toList
  else [value]

/-- The parts of an attribute or a spread. -/
def propertyParts (part : Node) : List Node :=
  if part.kind == "jsx_attribute" then (part.namedChildren[1]?.map valueParts).getD []
  else if part.kind == "jsx_expression" then (part.namedChildren.find? (·.kind == "spread_element")).toList
  else []

/-- The parts of a child of an element. -/
def childParts (child : Node) : List Node :=
  if child.kind == "comment" then []
  else if child.kind == "jsx_expression" then (expressionIn? child).toList
  else [child]

/-- The parts of an element between two offsets. -/
def contentParts (start stop : Nat) (node : Node) : List Node :=
  (node.children.filter fun child => child.isNamed && start ≤ child.start && child.stop ≤ stop
    && child.kind != "jsx_text" && child.kind != "html_character_reference").flatMap childParts

/-- The tags at the ends of an element with content. -/
def tags? (node : Node) : Option (Node × Node) := do
  let opening ← node.childByField? "open_tag" <|> node.children.head?
  let closing ← node.childByField? "close_tag" <|> node.children.getLast?
  return (opening, closing)

/-- The tokens around the content of a fragment. -/
def bounds? (node : Node) : Option (Node × Node) := do
  let start ← node.children[1]?
  let stop ← node.children.reverse[2]?
  return (start, stop)

/-- The parts of an element. -/
def elementParts (node : Node) : List Node :=
  if node.kind == "jsx_self_closing_element" then node.namedChildren.flatMap propertyParts
  else if node.kind == "jsx_fragment" then
    ((bounds? node).map fun bounds => contentParts bounds.1.stop bounds.2.start node).getD []
  else
    ((tags? node).map fun tags =>
      tags.1.namedChildren.flatMap propertyParts ++ contentParts tags.1.stop tags.2.start node).getD []

/-! ## §4. Nodes -/

/-- The parts of a node of a kind that is neither removed nor a wrapper. -/
def constructParts (context : Context) (node : Node) : List Node :=
  match node.kind with
  | "import_statement" =>
    if importsTypes context node then [] else statementParts "import_clause" node
  | "export_statement" =>
    if exportsNothing context node then [] else statementParts "export_clause" node
  | "call_expression" => callParts node
  | "type_assertion" => node.namedChildren.getLast?.toList
  | "public_field_definition" =>
    if node.hasToken "declare" || node.hasToken "abstract" then [] else keptChildren node
  | "internal_module" | "module" => []
  | "method_definition" => methodParts context node
  | "enum_declaration" => (enumMembers node).filterMap initializer?
  | kind => if elementKinds.contains kind then elementParts node else keptChildren node

/-- The nodes that the rule for a node emits, in order. -/
def emittedParts (context : Context) (node : Node) : List Node :=
  if removedKinds.contains node.kind then []
  else if wrapperKinds.contains node.kind then node.namedChildren.head?.toList
  else if node.isToken "readonly" then []
  else constructParts context node

/-- The node is reached from the root through parts that are emitted. -/
inductive Emits (context : Context) (root : Node) : Node → Prop where
  | self : Emits context root root
  | part {node part : Node} (h : Emits context root node) (hpart : part ∈ emittedParts context node) :
    Emits context root part

theorem Emits.trans {context : Context} {root node inner : Node} (h : Emits context root node)
    (hinner : Emits context node inner) : Emits context root inner := by
  induction hinner with
  | self => exact h
  | part _ hmem ih => exact .part ih hmem

/-- What a part emits is emitted. -/
theorem Emits.of_part {context : Context} {root part node : Node} (hpart : part ∈ emittedParts context root)
    (h : Emits context part node) : Emits context root node :=
  (Emits.part .self hpart).trans h

/-- A node emits itself and what its parts emit. -/
theorem emits_iff {context : Context} {root node : Node} :
    Emits context root node ↔ node = root ∨ ∃ part ∈ emittedParts context root, Emits context part node := by
  constructor
  · intro h
    induction h with
    | self => exact .inl rfl
    | part _ hmem ih =>
      rcases ih with rfl | ⟨first, hfirst, hnode⟩
      · exact .inr ⟨_, hmem, .self⟩
      · exact .inr ⟨first, hfirst, .part hnode hmem⟩
  · rintro (rfl | ⟨part, hpart, hnode⟩)
    · exact .self
    · exact .of_part hpart hnode

/-! ## §5. Parts lie in children -/

/-- The node lies in one of the children of another one. -/
def LiesIn (part node : Node) : Prop :=
  ∃ child ∈ node.children, part ∈ child.preorder

section LiesIn

variable {context : Context} {node child part : Node}

theorem liesIn_of_mem_children (h : part ∈ node.children) : LiesIn part node :=
  ⟨part, h, Node.mem_preorder_self part⟩

theorem mem_children_of_named (h : part ∈ node.namedChildren) : part ∈ node.children :=
  (List.mem_filter.mp h).1

theorem liesIn_of_named (h : part ∈ node.namedChildren) : LiesIn part node :=
  liesIn_of_mem_children (mem_children_of_named h)

theorem LiesIn.mem_preorder (h : LiesIn part node) : part ∈ node.preorder := by
  obtain ⟨child, hchild, hpart⟩ := h
  exact Node.mem_preorder_of_mem_children hchild hpart

theorem LiesIn.of_child (h : LiesIn part child) (hchild : child ∈ node.children) : LiesIn part node :=
  ⟨child, hchild, h.mem_preorder⟩

theorem liesIn_of_find? {q : Node → Bool} (h : part ∈ (node.namedChildren.find? q).toList) : LiesIn part node :=
  liesIn_of_named (List.mem_of_find?_eq_some (Option.mem_toList.mp h))

/-- What is emitted in the places of children lies in the node if what has been exchanged lies in the
children. -/
theorem liesIn_of_exchangeFirst {q : Node → Bool} {parts : Node → List Node} {places : List Place}
    (hplaces : ∀ part ∈ Place.partsOf places, LiesIn part node)
    (hparts : ∀ place ∈ places, ∀ part ∈ parts place.node, LiesIn part node) :
    ∀ part ∈ Place.partsOf (Place.exchangeFirst q parts places), LiesIn part node := by
  intro part hpart
  rcases Place.mem_partsOf_exchangeFirst hpart with hmem | ⟨place, hplace, hmem⟩
  · exact hplaces part hmem
  · exact hparts place hplace part hmem

theorem liesIn_of_children : ∀ part ∈ Place.partsOf (node.children.map Place.ofNode), LiesIn part node := by
  rw [Place.partsOf_map_ofNode]
  exact fun part => liesIn_of_mem_children

theorem liesIn_of_mem_statementParts {clauseKind : String} (h : part ∈ statementParts clauseKind node) :
    LiesIn part node :=
  liesIn_of_exchangeFirst (liesIn_of_exchangeFirst liesIn_of_children fun _ _ _ hmem =>
    absurd hmem List.not_mem_nil) (fun _ _ _ hmem => absurd hmem List.not_mem_nil) part h

/-- What is emitted in the place of a child, if it lies in the child. -/
theorem liesIn_of_exchanged {q : Node → Bool} {parts : Node → List Node}
    (hparts : ∀ child part, part ∈ parts child → LiesIn part child)
    (h : part ∈ Place.partsOf (Place.exchangeFirst q parts (node.children.map Place.ofNode))) :
    LiesIn part node := by
  refine liesIn_of_exchangeFirst liesIn_of_children (fun place hplace part hpart => ?_) part h
  obtain ⟨child, hchild, rfl⟩ := List.mem_map.mp hplace
  exact (hparts child part hpart).of_child hchild

theorem liesIn_of_mem_argumentParts (arguments part : Node) (h : part ∈ argumentParts arguments) :
    LiesIn part arguments :=
  liesIn_of_exchanged (fun _ _ hmem => absurd hmem List.not_mem_nil) h

theorem liesIn_of_mem_callParts (h : part ∈ callParts node) : LiesIn part node := by
  unfold callParts at h
  split at h
  · exact liesIn_of_mem_children h
  · exact liesIn_of_exchanged liesIn_of_mem_argumentParts h

theorem liesIn_of_mem_keptChildren (h : part ∈ keptChildren node) : LiesIn part node :=
  liesIn_of_mem_children (List.mem_filter.mp h).1

theorem liesIn_of_mem_bodyParts (body part : Node) (h : part ∈ bodyParts body) : LiesIn part body := by
  unfold bodyParts at h
  split at h
  · exact liesIn_of_mem_children h
  · exact liesIn_of_mem_children (List.mem_filter.mp h).1

theorem liesIn_of_mem_methodParts (h : part ∈ methodParts context node) : LiesIn part node := by
  unfold methodParts at h
  split at h
  · exact liesIn_of_exchanged liesIn_of_mem_bodyParts h
  · exact liesIn_of_mem_keptChildren h

theorem liesIn_of_mem_initializers (h : part ∈ (enumMembers node).filterMap initializer?) :
    LiesIn part node := by
  obtain ⟨member, hmember, hinitializer⟩ := List.mem_filterMap.mp h
  have hpart := liesIn_of_mem_children (mem_children_of_initializer hinitializer)
  unfold enumMembers at hmember
  cases hbody : node.childByField? "body" with
  | none =>
    rw [hbody] at hmember
    exact absurd hmember List.not_mem_nil
  | some body =>
    rw [hbody] at hmember
    exact (hpart.of_child (mem_children_of_named hmember)).of_child (List.mem_of_find?_eq_some hbody)

/-- What is emitted for a value or for a child is the node itself or lies in it. -/
theorem mem_childParts (h : part ∈ childParts child) : part ∈ child.preorder := by
  unfold childParts at h
  split at h
  · exact absurd h List.not_mem_nil
  · split at h
    · exact (liesIn_of_find? h).mem_preorder
    · rw [List.mem_singleton.mp h]
      exact Node.mem_preorder_self child

theorem mem_valueParts (h : part ∈ valueParts child) : part ∈ child.preorder := by
  unfold valueParts at h
  split at h
  · exact absurd h List.not_mem_nil
  · split at h
    · exact (liesIn_of_find? h).mem_preorder
    · rw [List.mem_singleton.mp h]
      exact Node.mem_preorder_self child

theorem mem_propertyParts (h : part ∈ propertyParts child) : part ∈ child.preorder := by
  unfold propertyParts at h
  split at h
  · cases hvalue : child.namedChildren[1]? with
    | none =>
      rw [hvalue] at h
      exact absurd h List.not_mem_nil
    | some value =>
      rw [hvalue] at h
      exact Node.mem_preorder_of_mem_children (mem_children_of_named (List.mem_of_getElem? hvalue))
        (mem_valueParts h)
  · split at h
    · exact (liesIn_of_find? h).mem_preorder
    · exact absurd h List.not_mem_nil

theorem liesIn_of_mem_properties (h : part ∈ node.namedChildren.flatMap propertyParts) : LiesIn part node := by
  obtain ⟨child, hchild, hpart⟩ := List.mem_flatMap.mp h
  exact ⟨child, mem_children_of_named hchild, mem_propertyParts hpart⟩

theorem liesIn_of_mem_contentParts {start stop : Nat} (h : part ∈ contentParts start stop node) :
    LiesIn part node := by
  obtain ⟨child, hchild, hpart⟩ := List.mem_flatMap.mp h
  exact ⟨child, (List.mem_filter.mp hchild).1, mem_childParts hpart⟩

theorem mem_children_of_tags? {tags : Node × Node} (h : tags? node = some tags) :
    tags.1 ∈ node.children := by
  unfold tags? at h
  obtain ⟨opening, hopening, h⟩ := Option.bind_eq_some_iff.mp h
  obtain ⟨closing, -, h⟩ := Option.bind_eq_some_iff.mp h
  cases h
  rcases Draft.eq_some_or_of_orElse hopening with hfield | hhead
  · exact List.mem_of_find?_eq_some hfield
  · exact List.mem_of_head? hhead

theorem liesIn_of_mem_elementParts (h : part ∈ elementParts node) : LiesIn part node := by
  unfold elementParts at h
  split at h
  · exact liesIn_of_mem_properties h
  · split at h
    · cases hbounds : bounds? node with
      | none =>
        rw [hbounds] at h
        exact absurd h List.not_mem_nil
      | some bounds =>
        rw [hbounds] at h
        exact liesIn_of_mem_contentParts h
    · cases htags : tags? node with
      | none =>
        rw [htags] at h
        exact absurd h List.not_mem_nil
      | some tags =>
        rw [htags] at h
        rcases List.mem_append.mp h with hmem | hmem
        · exact (liesIn_of_mem_properties hmem).of_child (mem_children_of_tags? htags)
        · exact liesIn_of_mem_contentParts hmem

/-- **What a node emits lies in its children.** -/
theorem liesIn_of_mem_emittedParts (h : part ∈ emittedParts context node) : LiesIn part node := by
  unfold emittedParts at h
  split at h
  · exact absurd h List.not_mem_nil
  · split at h
    · exact liesIn_of_named (List.mem_of_head? (Option.mem_toList.mp h))
    · split at h
      · exact absurd h List.not_mem_nil
      · unfold constructParts at h
        split at h
        · split at h
          · exact absurd h List.not_mem_nil
          · exact liesIn_of_mem_statementParts h
        · split at h
          · exact absurd h List.not_mem_nil
          · exact liesIn_of_mem_statementParts h
        · exact liesIn_of_mem_callParts h
        · exact liesIn_of_named (List.mem_of_getLast? (Option.mem_toList.mp h))
        · split at h
          · exact absurd h List.not_mem_nil
          · exact liesIn_of_mem_keptChildren h
        · exact absurd h List.not_mem_nil
        · exact absurd h List.not_mem_nil
        · exact liesIn_of_mem_methodParts h
        · exact liesIn_of_mem_initializers h
        · split at h
          · exact liesIn_of_mem_elementParts h
          · exact liesIn_of_mem_keptChildren h

/-- What a tree emits lies in it. -/
theorem Emits.mem_preorder {root : Node} (h : Emits context root node) : node ∈ root.preorder := by
  induction h with
  | self => exact Node.mem_preorder_self root
  | part _ hpart ih => exact Node.preorder_subset ih (liesIn_of_mem_emittedParts hpart).mem_preorder

end LiesIn

/-- **What holds of a node if it holds of all its parts holds of every node.** -/
theorem forall_of_parts (context : Context) {P : Node → Prop}
    (h : ∀ node, (∀ part ∈ emittedParts context node, P part) → P node) (node : Node) : P node := by
  -- the parts of a node lie in its children, at any depth
  have hall : ∀ other ∈ node.preorder, P other := by
    induction node using Node.forall_of_children with
    | h node ih =>
      intro other hother
      rw [Node.preorder_eq] at hother
      rcases List.mem_cons.mp hother with rfl | hother
      · refine h _ fun part hpart => ?_
        obtain ⟨child, hchild, hmem⟩ := liesIn_of_mem_emittedParts hpart
        exact ih child hchild part hmem
      · obtain ⟨_, hmap, hother⟩ := List.mem_flatten.mp hother
        obtain ⟨child, hchild, rfl⟩ := List.mem_map.mp hmap
        exact ih child hchild other hother
  exact hall node (Node.mem_preorder_self node)

end LivePreview.Lowering
