/-
  LivePreview.Proofs.Lowering.Assembled
  ─────────────────────────────────────
  **Nodes that are emitted as they stand.**

  Most kinds of nodes are assembled from the source between their children and from what
  the children emit, without some tokens (`emission_of_isAssembled`).  Such a node is
  emitted like any stretch of the source with nodes in it (`emitStretch`), and a stretch
  falls apart at each of its nodes (`emitStretch_append`), so that what a rule puts next to
  one of them has its place among the code of the others.
-/
import LivePreview.Proofs.Lowering.Trace.Segment

namespace LivePreview.Lowering

open LivePreview.Syntax (Node)

variable {context : Context} {node : Node}

/-! ## §1. Exchanged steps among others -/

section Exchanged

variable {p : Draft → Bool} {f : Draft → Emit Code} {middle : Draft} {before behind : List Draft}

theorem replaceFirst_append (hbefore : ∀ draft ∈ before, p draft = false) (hmiddle : p middle = true) :
    Draft.replaceFirst p f (before ++ middle :: behind)
      = before ++ middle.withEmission (f middle) :: behind := by
  induction before with
  | nil =>
    rw [List.nil_append, Draft.replaceFirst, if_pos hmiddle]
    rfl
  | cons first before ih =>
    obtain ⟨hfirst, hbefore⟩ := List.forall_mem_cons.mp hbefore
    rw [List.cons_append, Draft.replaceFirst, if_neg (by rw [hfirst]; exact Bool.false_ne_true), ih hbefore]
    rfl

theorem replaceEach_eq_self {drafts : List Draft} (h : ∀ draft ∈ drafts, p draft = false) :
    Draft.replaceEach p f drafts = drafts := by
  refine (List.map_congr_left fun draft hdraft => ?_).trans (List.map_id drafts)
  exact if_neg (by rw [h draft hdraft]; exact Bool.false_ne_true)

theorem replaceEach_cons (hmiddle : p middle = true) (hbehind : ∀ draft ∈ behind, p draft = false) :
    Draft.replaceEach p f (middle :: behind) = middle.withEmission (f middle) :: behind := by
  have hself := replaceEach_eq_self hbehind (f := f)
  unfold Draft.replaceEach at hself ⊢
  rw [List.map_cons, if_pos hmiddle, hself]

/-- What is tested on drafts is tested on their nodes. -/
theorem forall_map_draft {q : Node → Bool} {value : Bool} {nodes : List Node}
    (hp : ∀ node, p (draft context node) = q node) (h : ∀ node ∈ nodes, q node = value) :
    ∀ child ∈ nodes.map (draft context), p child = value :=
  List.forall_mem_map.mpr fun node hnode => (hp node).trans (h node hnode)

end Exchanged

/-! ## §2. Assembled nodes -/

/-- The kinds of nodes whose rules emit something else than their children in their places. -/
def remadeKinds : List String :=
  ["import_statement", "export_statement", "type_assertion", "internal_module", "module", "enum_declaration"]
    ++ elementKinds

/-- The method is a constructor with a body, which assigns the properties among its parameters. -/
def assignsProperties (context : Context) (method : Node) : Bool :=
  (method.childByField? "name").any (context.text · == "constructor")
    && !(parameterProperties context method).isEmpty && (method.childByField? "body").isSome

/-- The node is emitted as it stands, without the tokens that its kind loses. -/
structure IsAssembled (context : Context) (node : Node) : Prop where
  leaves : leavesNothing context node = false
  wraps : node.kind ∉ wrapperKinds
  remade : node.kind ∉ remadeKinds
  imports : node.kind = "call_expression" → importedLiteral? node = none
  assigns : node.kind = "method_definition" → assignsProperties context node = false

/-- What is neither a type, a wrapper nor a modifier is a construct. -/
theorem emission_of_construct {kind : String} (hkind : node.kind = kind)
    (hplain : kind ∉ removedKinds ++ wrapperKinds ++ ["readonly"]) (children : List Draft) :
    emission context node children = constructEmission context node children := by
  simp only [List.mem_append, List.mem_singleton, not_or] at hplain
  obtain ⟨⟨hremoved, hwraps⟩, hreadonly⟩ := hplain
  unfold emission Node.isToken
  rw [hkind, if_neg (fun h => hremoved (List.contains_iff_mem.mp h)),
    if_neg (fun h => hwraps (List.contains_iff_mem.mp h)), if_neg (by simp [hreadonly])]

/-- Without tokens to drop the node keeps all its children. -/
theorem dropTokens_nil (children : List Draft) :
    Draft.dropTokens context [] node children = Draft.assemble context node children := by
  have hnone : ∀ draft ∈ children, Draft.isTokenAmong [] draft = false := fun _ _ => Bool.and_false _
  unfold Draft.dropTokens
  rw [replaceEach_eq_self hnone]

theorem methodDefinition_of_not_assigns {children : List Draft} (h : assignsProperties context node = false) :
    methodDefinition context node children = Draft.dropTokens context ["?"] node children := by
  unfold methodDefinition
  exact if_neg fun hassigns => Bool.false_ne_true (h.symm.trans hassigns)

/-- **The rule for a node that is emitted as it stands.** -/
theorem emission_of_isAssembled (h : IsAssembled context node) (children : List Draft) :
    emission context node children
      = Draft.dropTokens context (droppedTokens node.kind) node children := by
  obtain ⟨hleaves, hwraps, hremade, himports, hassigns⟩ := h
  unfold leavesNothing at hleaves
  simp only [Bool.or_eq_false_iff] at hleaves
  obtain ⟨⟨⟨⟨hremoved, hreadonly⟩, -⟩, -⟩, hfield⟩ := hleaves
  unfold emission
  rw [if_neg (by rw [hremoved]; exact Bool.false_ne_true),
    if_neg (fun hmem => hwraps (List.contains_iff_mem.mp hmem)),
    if_neg (by rw [hreadonly]; exact Bool.false_ne_true)]
  unfold constructEmission
  split
  · next hkind => exact absurd (hkind ▸ by decide) hremade
  · next hkind => exact absurd (hkind ▸ by decide) hremade
  · next hkind =>
    unfold callExpression
    rw [himports hkind, hkind]
    exact (dropTokens_nil children).symm
  · next hkind => exact absurd (hkind ▸ by decide) hremade
  · next hkind => rw [hkind]; rfl
  · next hkind => rw [hkind]; rfl
  · next hkind =>
    rw [hkind, beq_self_eq_true, Bool.true_and] at hfield
    unfold fieldDefinition
    rw [if_neg (by rw [hfield]; exact Bool.false_ne_true), hkind]
    rfl
  · next hkind => rw [hkind]; rfl
  · next hkind => exact absurd (hkind ▸ by decide) hremade
  · next hkind => exact absurd (hkind ▸ by decide) hremade
  · next hkind =>
    rw [methodDefinition_of_not_assigns (hassigns hkind), hkind]
    rfl
  · next hkind => exact absurd (hkind ▸ by decide) hremade
  · rw [if_neg fun hmem => hremade (List.mem_append_right _ (List.contains_iff_mem.mp hmem))]
    -- the kinds with tokens to lose have had their turn
    have hkinds : droppedTokens node.kind = [] := by
      unfold droppedTokens
      split
      · contradiction
      · contradiction
      · contradiction
      · contradiction
      · contradiction
      · rfl
    rw [hkinds, dropTokens_nil]

/-- The kinds of nodes whose rules look at more than the kind, or do not assemble the node. -/
def ruledKinds : List String :=
  removedKinds ++ wrapperKinds ++ remadeKinds
    ++ ["readonly", "call_expression", "method_definition", "public_field_definition"]

/-- A node of any other kind is emitted as it stands. -/
theorem isAssembled_of_kind {kind : String} (hkind : node.kind = kind) (hplain : kind ∉ ruledKinds) :
    IsAssembled context node := by
  unfold ruledKinds at hplain
  simp only [List.mem_append, List.mem_cons, List.not_mem_nil, or_false, not_or] at hplain
  obtain ⟨⟨⟨hremoved, hwraps⟩, hremade⟩, hreadonly, hcall, hmethod, hfield⟩ := hplain
  refine ⟨?_, hkind ▸ hwraps, hkind ▸ hremade, fun h => absurd (hkind.symm.trans h) hcall,
    fun h => absurd (hkind.symm.trans h) hmethod⟩
  have himport : kind ≠ "import_statement" := fun h => hremade (h ▸ by decide)
  have hexport : kind ≠ "export_statement" := fun h => hremade (h ▸ by decide)
  unfold leavesNothing Node.isToken
  rw [hkind]
  simp [hremoved, hreadonly, himport, hexport, hfield]

/-! ## §3. Stretches -/

theorem assembleFrom_append (source : String) (stop position : Nat) (before : List Draft) (middle : Draft)
    (behind : List Draft) :
    Draft.assembleFrom source stop position (before ++ middle :: behind) = (do
      let front ← Draft.assembleFrom source middle.node.start position before
      let code ← middle.emission
      let back ← Draft.assembleFrom source stop middle.node.stop behind
      return front ++ code ++ back) := by
  induction before generalizing position with
  | nil => rw [List.nil_append, Draft.assembleFrom, Draft.assembleFrom, pure_bind]
  | cons first before ih =>
    rw [List.cons_append, Draft.assembleFrom, Draft.assembleFrom, ih]
    simp only [bind_assoc, pure_bind, List.append_assoc]

/-- Emit nodes and the source between them, from one offset to another. -/
def emitStretch (context : Context) (start stop : Nat) (nodes : List Node) : Emit Code :=
  Draft.assembleFrom context.source stop start (nodes.map (draft context))

/-- **A stretch falls apart at each of its nodes.** -/
theorem emitStretch_append (start stop : Nat) (before : List Node) (middle : Node) (behind : List Node) :
    emitStretch context start stop (before ++ middle :: behind) = (do
      let front ← emitStretch context start middle.start before
      let code ← emit context middle
      let back ← emitStretch context middle.stop stop behind
      return front ++ code ++ back) := by
  unfold emitStretch
  rw [List.map_append, List.map_cons, assembleFrom_append, node_draft]
  rfl

/-- A stretch that ends where its last node does. -/
theorem emitStretch_concat (start : Nat) (before : List Node) (last : Node) :
    emitStretch context start last.stop (before ++ [last]) = (do
      let front ← emitStretch context start last.start before
      let code ← emit context last
      return front ++ code) := by
  have hback : emitStretch context last.stop last.stop [] = return [] := by
    show (return Code.ofText (Node.slice context.source last.stop last.stop) : Emit Code) = _
    rw [Node.slice_of_le (Nat.le_refl _)]
    rfl
  rw [emitStretch_append, hback]
  simp only [pure_bind, List.append_nil]

/-- What a rule puts behind one of the children of a node stands between that child and the others. -/
theorem assemble_behind (node : Node) (front : List Node) (anchor : Node) (back : List Node) (added : Code) :
    Draft.assemble context node (front.map (draft context)
        ++ (draft context anchor).withEmission (do return (← emit context anchor) ++ added)
          :: back.map (draft context)) = (do
      let opening ← emitStretch context node.start anchor.stop (front ++ [anchor])
      let rest ← emitStretch context anchor.stop node.stop back
      return opening ++ added ++ rest) := by
  unfold Draft.assemble
  rw [if_neg (by simp), assembleFrom_append, emitStretch_concat]
  simp only [Draft.withEmission, node_draft, bind_assoc, pure_bind, List.append_assoc]
  rfl

/-! ## §4. Emission of assembled nodes -/

theorem emit_eq (context : Context) (node : Node) :
    emit context node = emission context node (node.children.map (draft context)) := by
  unfold emit
  rw [draft_eq]

/-- A leaf is copied. -/
theorem emit_leaf (h : IsAssembled context node) (hleaf : node.children = []) :
    emit context node = return Code.ofText (context.text node) := by
  rw [emit_eq, emission_of_isAssembled h, hleaf]
  rfl

/-- A node that loses no tokens is emitted like the stretch that it takes up. -/
theorem emit_of_isAssembled (h : IsAssembled context node) (hkept : droppedTokens node.kind = [])
    (hchildren : node.children ≠ []) :
    emit context node = emitStretch context node.start node.stop node.children := by
  rw [emit_eq, emission_of_isAssembled h, hkept, dropTokens_nil]
  unfold Draft.assemble
  exact if_neg (by simpa using hchildren)

/-- A stretch of nodes that are copied is copied. -/
theorem emitStretch_of_copied {start stop : Nat} {nodes : List Node}
    (hstart : Node.IsBoundary context.source start) (hstop : Node.IsBoundary context.source stop)
    (hrow : Node.InRow stop start nodes) (hplaced : ∀ node ∈ nodes, node.InPlace context.source)
    (hcopied : ∀ node ∈ nodes, emit context node = return Code.ofText (context.text node)) :
    emitStretch context start stop nodes
      = return Code.ofText (Node.slice context.source start stop) := by
  induction nodes generalizing start with
  | nil => rfl
  | cons node nodes ih =>
    obtain ⟨hgap, hle, hrow⟩ := hrow
    obtain ⟨hplace, hplaced⟩ := List.forall_mem_cons.mp hplaced
    obtain ⟨hnode, hcopied⟩ := List.forall_mem_cons.mp hcopied
    have hbehind := ih hplace.stop_isBoundary hrow hplaced hcopied
    -- the gap, the text of the node, and the stretch behind it
    rw [← List.nil_append (node :: nodes), emitStretch_append, hnode, hbehind]
    show (return Code.ofText _ ++ Code.ofText _ ++ Code.ofText _ : Emit Code) = _
    rw [← Code.ofText_append, ← Code.ofText_append, Context.text, Node.text,
      Node.slice_append hstart hplace.start_isBoundary hplace.stop_isBoundary hgap hle,
      Node.slice_append hstart hplace.stop_isBoundary hstop (Nat.le_trans hgap hle) hrow.le]

/-- Leaves that are copied leave the source as it stands. -/
theorem emitStretch_of_leaves {start stop : Nat} {nodes : List Node}
    (hstart : Node.IsBoundary context.source start) (hstop : Node.IsBoundary context.source stop)
    (hrow : Node.InRow stop start nodes) (hplaced : ∀ node ∈ nodes, node.InPlace context.source)
    (hleaves : ∀ node ∈ nodes, IsAssembled context node ∧ node.children = []) :
    emitStretch context start stop nodes
      = return Code.ofText (Node.slice context.source start stop) :=
  emitStretch_of_copied hstart hstop hrow hplaced fun node hnode =>
    emit_leaf (hleaves node hnode).1 (hleaves node hnode).2

end LivePreview.Lowering
