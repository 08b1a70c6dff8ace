/-
  LivePreview.Proofs.Lowering.Trace.Kept
  ──────────────────────────────────────
  **Which tokens of a tree are copied.**

  A node keeps what can be reached from it through nodes that are emitted as they stand,
  and through those that leave an expression without its type (`Keeps`).  A copy of the
  node is a trace through it which holds every token that the node keeps, and no other ones
  but those out of constructs that are remade (`IsCopy`):

      source   f(a as T, <div/>)
      tokens   f ( a ,  )          and those that `<div/>` copies

  Main statement: `yields_isCopy` — the code of every node of a tree is that of a copy.
-/
import LivePreview.Proofs.Lowering.Assembled
import LivePreview.Proofs.Lowering.Trace.Module

namespace LivePreview.Lowering

open LivePreview.Syntax (Node)

variable {context : Context} {root node : Node}

/-! ## §1. Nodes that vanish, and nodes that leave an expression -/

theorem yields_importStatement_nil (h : importsTypes context node = true) (drafts : List Draft) :
    Yields (importStatement context node drafts) (· = []) := by
  unfold importStatement
  dsimp only
  split
  · exact yields_pure rfl
  · next htype =>
    have hclause : (node.namedChildren.find? (·.kind == "import_clause")).any
        (clauseText? context · == none) = true := by
      unfold importsTypes at h
      rwa [(Bool.not_eq_true _).mp htype, Bool.false_or] at h
    obtain ⟨clause, hfind, htext⟩ := (Option.any_eq_true _ _).mp hclause
    split
    · exact Yields.bind (P := fun _ => False) yields_reject fun _ hfalse => hfalse.elim
    · rw [hfind]
      dsimp only
      rw [eq_of_beq htext]
      exact Yields.bind (P := fun _ => True) ensures_noteReact fun _ _ => yields_pure rfl

theorem yields_exportStatement_nil (h : exportsNothing context node = true) (drafts : List Draft) :
    Yields (exportStatement context node drafts) (· = []) := by
  unfold exportStatement
  dsimp only
  split
  · exact yields_pure rfl
  · next htypes =>
    have hclause : (node.namedChildren.find? (·.kind == "export_clause")).any
        (exportClauseText? context · == none) = true := by
      unfold exportsNothing at h
      rwa [(Bool.not_eq_true _).mp htypes, Bool.false_or] at h
    obtain ⟨clause, hfind, htext⟩ := (Option.any_eq_true _ _).mp hclause
    split
    · exact Yields.bind (P := fun _ => False) yields_reject fun _ hfalse => hfalse.elim
    · rw [hfind]
      dsimp only
      rw [eq_of_beq htext]
      exact yields_pure rfl

/-- A node of which nothing is left has no code. -/
theorem yields_nil_of_leavesNothing (h : leavesNothing context node = true) (drafts : List Draft) :
    Yields (emission context node drafts) (· = []) := by
  unfold leavesNothing at h
  simp only [Bool.or_eq_true, Bool.and_eq_true, beq_iff_eq] at h
  rcases h with (((hremoved | hreadonly) | ⟨hkind, himports⟩) | ⟨hkind, hexports⟩) | ⟨hkind, hdeclared⟩
  · unfold emission
    rw [if_pos hremoved]
    exact yields_pure rfl
  · have hkind : node.kind = "readonly" := eq_of_beq (Bool.and_eq_true_iff.mp hreadonly).2
    unfold emission
    rw [if_neg (by rw [hkind]; decide), if_neg (by rw [hkind]; decide), if_pos hreadonly]
    exact yields_pure rfl
  · rw [emission_of_construct hkind (by decide), constructEmission, hkind]
    exact yields_importStatement_nil himports drafts
  · rw [emission_of_construct hkind (by decide), constructEmission, hkind]
    exact yields_exportStatement_nil hexports drafts
  · rw [emission_of_construct hkind (by decide), constructEmission, hkind]
    show Yields (fieldDefinition context node drafts) _
    unfold fieldDefinition
    rw [if_pos (Bool.or_eq_true_iff.mpr hdeclared)]
    exact yields_pure rfl

/-- A node with a type beside an expression is emitted like the expression. -/
theorem emit_of_unwrapped {inner : Node} (h : unwrapped? node = some inner) :
    emit context node = emit context inner := by
  rw [emit_eq]
  unfold unwrapped? at h
  split at h
  · next hwraps =>
    have hremoved : removedKinds.contains node.kind = false := by
      have hall : ∀ kind ∈ wrapperKinds, removedKinds.contains kind = false := by decide
      exact hall node.kind (List.contains_iff_mem.mp hwraps)
    unfold emission emitDemanded
    rw [if_neg (by rw [hremoved]; exact Bool.false_ne_true), if_pos hwraps, named_map_draft, List.head?_map]
    unfold Node.namedChildren at h
    rw [h]
    rfl
  · split at h
    · next hkind =>
      rw [emission_of_construct (eq_of_beq hkind) (by decide), constructEmission, eq_of_beq hkind]
      show emitDemanded _ = _
      unfold emitDemanded
      unfold Node.namedChildren at h
      rw [named_map_draft, List.getLast?_map, h]
      rfl
    · cases h

theorem mem_children_of_unwrapped {inner : Node} (h : unwrapped? node = some inner) :
    inner ∈ node.children := by
  have hnamed : inner ∈ node.namedChildren := by
    unfold unwrapped? at h
    split at h
    · exact List.mem_of_head? h
    · split at h
      · exact List.mem_of_getLast? h
      · cases h
  exact (List.mem_filter.mp hnamed).1

/-- A node that leaves an expression is not emitted as it stands. -/
theorem not_isAssembled_of_unwrapped {inner : Node} (h : unwrapped? node = some inner) :
    ¬ IsAssembled context node := by
  intro hassembled
  unfold unwrapped? at h
  split at h
  · next hwraps => exact hassembled.wraps (List.contains_iff_mem.mp hwraps)
  · split at h
    · next hkind => exact hassembled.remade (eq_of_beq hkind ▸ by decide)
    · cases h

/-- A node that leaves an expression is not lost. -/
theorem leavesNothing_of_unwrapped {inner : Node} (h : unwrapped? node = some inner) :
    leavesNothing context node = false := by
  have hkind : node.kind ∈ "type_assertion" :: wrapperKinds := by
    unfold unwrapped? at h
    split at h
    · next hmem => exact List.mem_cons_of_mem _ (List.contains_iff_mem.mp hmem)
    · split at h
      · next hkind => exact eq_of_beq hkind ▸ List.mem_cons_self
      · cases h
  have hplain : ∀ kind ∈ "type_assertion" :: wrapperKinds, removedKinds.contains kind = false ∧
      kind ∉ ["readonly", "import_statement", "export_statement", "public_field_definition"] := by decide
  obtain ⟨hremoved, hothers⟩ := hplain node.kind hkind
  unfold leavesNothing Node.isToken
  rw [hremoved]
  simp only [List.mem_cons, List.not_mem_nil, or_false, not_or] at hothers
  simp [hothers]

/-! ## §2. What is kept -/

/-- The token vanishes from among the children of the node. -/
def IsDropped (node child : Node) : Prop :=
  child.isNamed = false ∧ child.kind ∈ droppedTokens node.kind

/-- The node is reached through nodes that are emitted as they stand, and through those that leave an
expression. -/
inductive Keeps (context : Context) : Node → Node → Prop where
  | self (node : Node) : Keeps context node node
  | child {node child part : Node} (hnode : IsAssembled context node) (hchild : child ∈ node.children)
    (hkept : ¬ IsDropped node child) (hpart : Keeps context child part) : Keeps context node part
  | inner {node inner part : Node} (hnode : unwrapped? node = some inner) (hpart : Keeps context inner part) :
    Keeps context node part

/-- The token is kept. -/
structure KeepsToken (context : Context) (node token : Node) : Prop where
  keeps : Keeps context node token
  leaf : token.children = []
  assembled : IsAssembled context token

/-- The code of the node is neither copied nor that of an expression in it, and it is not lost. -/
structure IsRemade (context : Context) (node : Node) : Prop where
  remains : leavesNothing context node = false
  bare : unwrapped? node = none
  remade : ¬ IsAssembled context node

/-- The token lies in a construct that is kept and remade. -/
def InRemade (context : Context) (node token : Node) : Prop :=
  ∃ construct, Keeps context node construct ∧ IsRemade context construct ∧ token ∈ construct.preorder

/-- A node keeps itself, and what is reached from a child or from the expression in it. -/
theorem keepsToken_cases {token : Node} (h : KeepsToken context node token) :
    token = node ∨ (IsAssembled context node ∧ ∃ child ∈ node.children, ¬ IsDropped node child ∧
      KeepsToken context child token) ∨
      ∃ inner, unwrapped? node = some inner ∧ KeepsToken context inner token := by
  obtain ⟨hkeeps, hleaf, hassembled⟩ := h
  cases hkeeps with
  | self => exact .inl rfl
  | child hnode hchild hkept hpart => exact .inr (.inl ⟨hnode, _, hchild, hkept, hpart, hleaf, hassembled⟩)
  | inner hnode hpart => exact .inr (.inr ⟨_, hnode, hpart, hleaf, hassembled⟩)

/-- A node of which nothing is left keeps no token. -/
theorem not_keepsToken_of_leavesNothing (h : leavesNothing context node = true) (token : Node) :
    ¬ KeepsToken context node token := by
  intro htoken
  rcases keepsToken_cases htoken with rfl | ⟨hnode, -⟩ | ⟨inner, hinner, -⟩
  · exact Bool.true_eq_false.mp (h.symm.trans htoken.assembled.leaves)
  · exact Bool.true_eq_false.mp (h.symm.trans hnode.leaves)
  · exact Bool.true_eq_false.mp (h.symm.trans (leavesNothing_of_unwrapped hinner))

/-- A node that leaves an expression keeps the tokens of the expression. -/
theorem keepsToken_of_unwrapped_iff {inner token : Node} (h : unwrapped? node = some inner) :
    KeepsToken context node token ↔ KeepsToken context inner token := by
  refine ⟨fun htoken => ?_, fun ⟨hkeeps, hleaf, hassembled⟩ => ⟨.inner h hkeeps, hleaf, hassembled⟩⟩
  rcases keepsToken_cases htoken with rfl | ⟨hnode, -⟩ | ⟨_, hinner, htoken⟩
  · exact absurd htoken.assembled (not_isAssembled_of_unwrapped h)
  · exact absurd hnode (not_isAssembled_of_unwrapped h)
  · rwa [Option.some.inj (h.symm.trans hinner)]

/-! ## §3. Segments that copy -/

/-- The code is that of segments from one offset to another, which hold all tokens of one sort, and no
tokens but those of another sort. -/
def Copying (context : Context) (root : Node) (start stop : Nat) (kept allowed : Node → Prop) (code : Code) :
    Prop :=
  ∃ segments, Runs context root start segments stop ∧ spelled context.source segments = code ∧
    (∀ token, kept token → .token token ∈ segments) ∧ ∀ token, .token token ∈ segments → allowed token

section Copying

variable {a b c : Nat} {code other : Code} {kept allowed kept' allowed' : Node → Prop}

theorem Copying.imp (h : Copying context root a b kept allowed code)
    (hkept : ∀ token, kept' token → kept token) (hallowed : ∀ token, allowed token → allowed' token) :
    Copying context root a b kept' allowed' code := by
  obtain ⟨segments, hruns, hcode, hall, honly⟩ := h
  exact ⟨segments, hruns, hcode, fun token htoken => hall token (hkept token htoken),
    fun token hmem => hallowed token (honly token hmem)⟩

theorem Copying.append (h : Copying context root a b kept allowed code)
    (hother : Copying context root b c kept' allowed' other) :
    Copying context root a c (fun token => kept token ∨ kept' token)
      (fun token => allowed token ∨ allowed' token) (code ++ other) := by
  obtain ⟨segments, hruns, rfl, hall, honly⟩ := h
  obtain ⟨behind, hbehind, rfl, hall', honly'⟩ := hother
  refine ⟨segments ++ behind, hruns.append hbehind, List.flatMap_append, fun token htoken => ?_,
    fun token hmem => ?_⟩
  · exact List.mem_append.mpr (htoken.imp (hall token) (hall' token))
  · exact (List.mem_append.mp hmem).imp (honly token) (honly' token)

/-- A segment that is no token. -/
theorem copying_segment {segment : Segment} (h : segment.Justified context root)
    (hno : ∀ token, segment ≠ .token token) :
    Copying context root segment.start segment.stop (fun _ => False) (fun _ => False)
      (segment.code context.source) :=
  ⟨[segment], ⟨rfl, h, rfl⟩, List.append_nil _, fun _ => False.elim,
    fun token hmem => hno token (List.mem_singleton.mp hmem).symm⟩

theorem copying_gap (h : (Segment.gap a b).Justified context root) :
    Copying context root a b (fun _ => False) (fun _ => False) (.ofText (Node.slice context.source a b)) :=
  copying_segment h nofun

theorem copying_lost (h : IsLost context root a b) :
    Copying context root a b (fun _ => False) (fun _ => False) [] :=
  have hjustified : (Segment.lost a b).Justified context root := h
  copying_segment hjustified nofun

theorem copying_token {token : Node} (h : (Segment.token token).Justified context root) :
    Copying context root token.start token.stop (· = token) (· = token) (.ofText (context.text token)) :=
  ⟨[.token token], ⟨rfl, h, rfl⟩, List.append_nil _, fun _ hmem => hmem ▸ List.mem_singleton_self _,
    fun _ hmem => Segment.token.inj (List.mem_singleton.mp hmem)⟩

/-- The segments of an assembled node are those of its children, and the gaps between them. -/
theorem yields_copying_assembleFrom (kept allowed : Node → Node → Prop) {stop position : Nat}
    {drafts : List Draft} (hgaps : ∀ span ∈ Node.spans stop position (drafts.map Draft.node),
      (Segment.gap span.1 span.2).Justified context root)
    (h : ∀ draft ∈ drafts, Yields draft.emission
      (Copying context root draft.node.start draft.node.stop (kept draft.node) (allowed draft.node))) :
    Yields (Draft.assembleFrom context.source stop position drafts)
      (Copying context root position stop (fun token => ∃ node ∈ drafts.map Draft.node, kept node token)
        (fun token => ∃ node ∈ drafts.map Draft.node, allowed node token)) := by
  induction drafts generalizing position with
  | nil =>
    refine yields_pure ((copying_gap (hgaps (position, stop) List.mem_cons_self)).imp ?_ fun _ => False.elim)
    rintro token ⟨node, hnode, -⟩
    exact List.not_mem_nil hnode
  | cons draft drafts ih =>
    obtain ⟨hdraft, hrest⟩ := List.forall_mem_cons.mp h
    obtain ⟨hgap, hgaps⟩ := List.forall_mem_cons.mp hgaps
    unfold Draft.assembleFrom
    refine hdraft.bind fun code hcode => (ih hgaps hrest).map fun rest hrest => ?_
    refine (((copying_gap hgap).append hcode).append hrest).imp ?_ ?_
    · rintro token ⟨node, hnode, htoken⟩
      rcases List.mem_cons.mp hnode with rfl | hnode
      · exact .inl (.inr htoken)
      · exact .inr ⟨node, hnode, htoken⟩
    · rintro token ((hfalse | htoken) | ⟨node, hnode, htoken⟩)
      · exact hfalse.elim
      · exact ⟨draft.node, List.mem_cons_self, htoken⟩
      · exact ⟨node, List.mem_cons_of_mem _ hnode, htoken⟩

end Copying

/-! ## §4. Trees -/

/-- The code of the node is that of segments that go through it, which hold all tokens that the node
keeps, and else only such out of remade constructs. -/
def Copied (context : Context) (root node : Node) : Code → Prop :=
  Copying context root node.start node.stop (KeepsToken context node)
    fun token => KeepsToken context node token ∨ InRemade context node token

section Trees

variable (hplaced : ∀ node ∈ root.preorder, node.InPlace context.source)

theorem yields_copied_of_leavesNothing (hnode : node ∈ root.preorder)
    (h : leavesNothing context node = true) : Yields (emit context node) (Copied context root node) := by
  rw [emit_eq]
  refine (yields_nil_of_leavesNothing h _).imp fun code hcode => ?_
  rw [hcode]
  refine (copying_lost (.whole hnode h)).imp ?_ fun _ => False.elim
  exact fun token htoken => not_keepsToken_of_leavesNothing h token htoken

theorem yields_copied_of_unwrapped {inner : Node} (hnode : node ∈ root.preorder)
    (h : unwrapped? node = some inner) (hinner : Yields (emit context inner) (Copied context root inner)) :
    Yields (emit context node) (Copied context root node) := by
  rw [emit_of_unwrapped h]
  refine hinner.imp fun code hcode => ?_
  -- the type, the words and the blanks around the expression go
  have hwhole := ((copying_lost (.front hnode h)).append hcode).append (copying_lost (.back hnode h))
  rw [List.nil_append, List.append_nil] at hwhole
  refine hwhole.imp (fun token htoken => .inl (.inr ((keepsToken_of_unwrapped_iff h).mp htoken))) ?_
  rintro token ((hfalse | htoken | ⟨construct, hkeeps, hremade⟩) | hfalse)
  · exact hfalse.elim
  · exact .inl ((keepsToken_of_unwrapped_iff h).mpr htoken)
  · exact .inr ⟨construct, .inner h hkeeps, hremade⟩
  · exact hfalse.elim

theorem isTokenAmong_iff {child : Node} :
    Draft.isTokenAmong (droppedTokens node.kind) (draft context child) = true ↔ IsDropped node child := by
  unfold IsDropped
  rw [isTokenAmong_draft, Bool.and_eq_true, Bool.not_eq_true', List.contains_iff_mem]

/-- The children that are not dropped copy their tokens, and the others none. -/
theorem yields_copying_dropTokens (hnode : node ∈ root.preorder)
    (hchildren : ∀ child ∈ node.children, Yields (emit context child) (Copied context root child)) :
    ∀ step ∈ Draft.replaceEach (Draft.isTokenAmong (droppedTokens node.kind)) (fun _ => return [])
        (node.children.map (draft context)),
      Yields step.emission (Copying context root step.node.start step.node.stop
        (fun token => ¬ IsDropped node step.node ∧ KeepsToken context step.node token)
        fun token => ¬ IsDropped node step.node ∧
          (KeepsToken context step.node token ∨ InRemade context step.node token)) := by
  intro step hstep
  obtain ⟨_, hmem, rfl⟩ := List.mem_map.mp hstep
  obtain ⟨child, hchild, rfl⟩ := List.mem_map.mp hmem
  split
  · next hdropped =>
    have hlost : IsLost context root child.start child.stop := by
      obtain ⟨htoken, hkind⟩ := isTokenAmong_iff.mp hdropped
      exact .dropped hnode hchild htoken hkind
    rw [Draft.withEmission, node_draft]
    refine yields_pure ((copying_lost hlost).imp ?_ fun _ => False.elim)
    exact fun token htoken => htoken.1 (isTokenAmong_iff.mp hdropped)
  · next hkept =>
    rw [node_draft]
    refine (hchildren child hchild).imp fun code hcode => hcode.imp (fun token htoken => htoken.2) ?_
    exact fun token htoken => ⟨fun hdropped => hkept (isTokenAmong_iff.mpr hdropped), htoken⟩

/-- A node that is assembled from its children keeps their tokens. -/
theorem yields_copied_of_isAssembled (hnode : node ∈ root.preorder) (h : IsAssembled context node)
    (hchildren : ∀ child ∈ node.children, Yields (emit context child) (Copied context root child)) :
    Yields (emit context node) (Copied context root node) := by
  by_cases hleaf : node.children = []
  · -- a leaf is copied, and is the only token that it keeps
    have hjustified : (Segment.token node).Justified context root := ⟨hnode, hleaf⟩
    have hself : KeepsToken context node node := ⟨.self node, hleaf, h⟩
    rw [emit_leaf h hleaf]
    refine yields_pure ((copying_token hjustified).imp (fun token htoken => ?_)
      fun token htoken => .inl (htoken ▸ hself))
    rcases keepsToken_cases htoken with rfl | ⟨-, child, hchild, -⟩ | ⟨inner, hinner, -⟩
    · rfl
    · exact absurd (hleaf ▸ hchild) List.not_mem_nil
    · exact absurd h (not_isAssembled_of_unwrapped hinner)
  · have hne : ¬ (Draft.replaceEach (Draft.isTokenAmong (droppedTokens node.kind)) (fun _ => return [])
        (node.children.map (draft context))).isEmpty = true := by
      simpa [Draft.replaceEach] using hleaf
    have hnodes := (Draft.map_node_replaceEach (Draft.isTokenAmong (droppedTokens node.kind))
      (fun _ => return []) (node.children.map (draft context))).trans (map_node_draft context node.children)
    rw [emit_eq, emission_of_isAssembled h, Draft.dropTokens, Draft.assemble, if_neg hne]
    have hgaps : ∀ span ∈ Node.spans node.stop node.start node.children,
        (Segment.gap span.1 span.2).Justified context root := justified_gap hnode hleaf
    rw [← hnodes] at hgaps
    -- what the node keeps is what its children keep, since the node itself is no leaf
    refine (yields_copying_assembleFrom
      (fun child token => ¬ IsDropped node child ∧ KeepsToken context child token)
      (fun child token => ¬ IsDropped node child ∧
        (KeepsToken context child token ∨ InRemade context child token))
      hgaps (yields_copying_dropTokens hnode hchildren)).imp fun code hcode => hcode.imp ?_ ?_
    · intro token htoken
      rw [hnodes]
      rcases keepsToken_cases htoken with rfl | ⟨-, hchild⟩ | ⟨inner, hinner, -⟩
      · exact absurd htoken.leaf hleaf
      · exact hchild
      · exact absurd h (not_isAssembled_of_unwrapped hinner)
    · rw [hnodes]
      rintro token ⟨child, hchild, hkept, ⟨hkeeps, hend, hassembled⟩ | ⟨construct, hkeeps, hremade⟩⟩
      · exact .inl ⟨.child h hchild hkept hkeeps, hend, hassembled⟩
      · exact .inr ⟨construct, .child h hchild hkept hkeeps, hremade⟩

include hplaced

/-- The code of a construct that is remade has tokens of the construct only. -/
theorem yields_copied_of_isRemade (hnode : node ∈ root.preorder) (h : IsRemade context node) :
    Yields (emit context node) (Copied context root node) := by
  -- a trace through the construct alone has no tokens from elsewhere in the tree
  have hsubset := Node.preorder_subset hnode
  have hstems := (traced_draft (fun other hother => hplaced other (hsubset hother))
    (Node.mem_preorder_self node)).emission
  rw [node_draft] at hstems
  refine hstems.imp fun code ⟨segments, hruns, hcode⟩ => ⟨segments, hruns.mono hsubset, hcode, ?_, ?_⟩
  · intro token htoken
    rcases keepsToken_cases htoken with rfl | ⟨hassembled, -⟩ | ⟨inner, hinner, -⟩
    · exact absurd htoken.assembled h.remade
    · exact absurd hassembled h.remade
    · exact absurd (hinner.symm.trans h.bare) (Option.some_ne_none _)
  · intro token hmem
    obtain ⟨htoken, -⟩ : (Segment.token token).Justified context node := hruns.justified _ hmem
    exact .inr ⟨node, .self node, h, htoken⟩

/-- Whatever code a node emits copies the tokens that the node keeps. -/
theorem yields_copied (hnode : node ∈ root.preorder) :
    Yields (emit context node) (Copied context root node) := by
  -- the cases are those of `Keeps`: lost, unwrapped, assembled, and what is left
  induction node using Node.forall_of_children with
  | h node ih =>
    have hchildren : ∀ child ∈ node.children, Yields (emit context child) (Copied context root child) :=
      fun child hchild => ih child hchild (Node.mem_preorder_of_child hnode hchild)
    by_cases hlost : leavesNothing context node = true
    · exact yields_copied_of_leavesNothing hnode hlost
    · cases hinner : unwrapped? node with
      | some inner =>
        exact yields_copied_of_unwrapped hnode hinner (hchildren inner (mem_children_of_unwrapped hinner))
      | none =>
        by_cases hassembled : IsAssembled context node
        · exact yields_copied_of_isAssembled hnode hassembled hchildren
        · exact yields_copied_of_isRemade hplaced hnode ⟨(Bool.not_eq_true _).mp hlost, hinner, hassembled⟩

end Trees

/-! ## §5. Copies -/

/-- The segments go through the node and hold all tokens that it keeps, and else only such out of
remade constructs. -/
structure IsCopy (context : Context) (root node : Node) (segments : List Segment) : Prop where
  runs : Runs context root node.start segments node.stop
  kept : ∀ token, KeepsToken context node token → .token token ∈ segments
  only : ∀ token, .token token ∈ segments → KeepsToken context node token ∨ InRemade context node token

/-- **The code of a node is that of a copy of it.** -/
theorem yields_isCopy (hplaced : ∀ node ∈ root.preorder, node.InPlace context.source)
    (hnode : node ∈ root.preorder) :
    Yields (emit context node) fun code => ∃ segments, IsCopy context root node segments ∧
      code = spelled context.source segments :=
  (yields_copied hplaced hnode).imp fun _ ⟨segments, hruns, hcode, hkept, honly⟩ =>
    ⟨segments, ⟨hruns, hkept, honly⟩, hcode.symm⟩

end LivePreview.Lowering
