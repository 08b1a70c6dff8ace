/-
  LivePreview.Proofs.Lowering.Sites.Imports
  ─────────────────────────────────────────
  **Every tree emits its imports in order.**

  A statement or a call that imports records its specifier before it emits anything, so
  its literal has to come first among the placeholders of its node.  It does if there is
  no other import in front of the literal (`ImportsApart`), as in every tree of the
  grammar.  Under this condition every node tallies, and one that holds no imports is
  quiet (`orderly_draft`).
-/
import LivePreview.Lowering.Emission
import LivePreview.Proofs.Lowering.Emission
import LivePreview.Proofs.Lowering.Sites.Rules

namespace LivePreview.Lowering

open LivePreview.Syntax (Node)

variable {context : Context} {loud : Bool} {node : Node} {children : List Draft}

/-! ## §1. Where imports stand -/

/-- The node imports a specifier. -/
def importsSpecifier (node : Node) : Bool :=
  match node.kind with
  | "import_statement" | "export_statement" => (node.childByField? "source").isSome
  | "call_expression" => (importedLiteral? node).isSome
  | _ => false

/-- The node or one of the nodes in it imports a specifier. -/
def holdsImport : Node → Bool :=
  Node.fold fun node results => importsSpecifier node || results.any id

/-- The children in front of the first one in a role. -/
def childrenInFront (name : String) (node : Node) : List Node :=
  node.children.takeWhile fun child => !(child.field? == some name)

/-- The tokens and constructs in front of the specifier literal of an import: in front of the source
of a statement, or in front of the arguments of a call and of the first one among them. -/
def inFrontOfLiteral (node : Node) : List Node :=
  if node.kind == "call_expression" then
    childrenInFront "arguments" node
      ++ ((node.childByField? "arguments").map fun arguments =>
        arguments.children.takeWhile (!·.isNamed)).getD []
  else childrenInFront "source" node

/-- In front of the literal of an import stands no other import. -/
def ImportsApart (root : Node) : Prop :=
  ∀ node ∈ root.preorder, importsSpecifier node = true →
    ∀ other ∈ inFrontOfLiteral node, holdsImport other = false

instance (root : Node) : Decidable (ImportsApart root) :=
  inferInstanceAs (Decidable (∀ node ∈ _, _))

theorem holdsImport_eq (node : Node) :
    holdsImport node = (importsSpecifier node || (node.children.map holdsImport).any id) :=
  Node.fold_eq _ node

theorem ImportsApart.child (h : ImportsApart node) {child : Node} (hchild : child ∈ node.children) :
    ImportsApart child := by
  intro other hother
  refine h other ?_
  rw [Node.preorder_eq]
  exact List.mem_cons_of_mem _ (List.mem_flatten.mpr ⟨_, List.mem_map_of_mem hchild, hother⟩)

theorem ImportsApart.inFront (h : ImportsApart node) (himports : importsSpecifier node = true) :
    ∀ other ∈ inFrontOfLiteral node, holdsImport other = false := by
  refine h node ?_ himports
  rw [Node.preorder_eq]
  exact List.mem_cons_self

/-! ## §2. Drafts with a literal -/

namespace Draft

/-- The drafts in front of the specifier literal of an import. -/
def inFrontOfLiteral (node : Node) (children : List Draft) : List Draft :=
  if node.kind == "call_expression" then
    inFrontOf (hasField "arguments") children
      ++ ((children.find? (hasField "arguments")).map fun arguments =>
        inFrontOf isNamed arguments.children).getD []
  else inFrontOf (hasField "source") children

/-- The drafts of the children of a node are orderly.  If the node imports a specifier, it may give out
numbers, and nothing in front of its literal does. -/
structure Prepared (loud : Bool) (node : Node) (children : List Draft) : Prop where
  nodes_eq : children.map Draft.node = node.children
  orderly : AllOrderly loud children
  literal : importsSpecifier node = true →
    loud = true ∧ Tallying false (inFrontOfLiteral node children)

/-- The drafts are those of the children of a node, and those in front of the first one that satisfies
a condition are quiet. -/
structure Ready (p : Draft → Bool) (node : Node) (children : List Draft) : Prop where
  nodes_eq : children.map Draft.node = node.children
  tallying : Tallying true children
  quiet : Tallying false (inFrontOf p children)

theorem Tallying.inFrontOf_replaceFirst {name : String} {drafts : List Draft}
    (h : Tallying false (inFrontOf (hasField name) drafts)) {q : Draft → Bool} {f : Draft → Emit Code}
    (hf : ∀ draft, Tallies 0 [] Code.numbers false (f draft)) :
    Tallying false (inFrontOf (hasField name) (Draft.replaceFirst q f drafts)) := by
  induction drafts with
  | nil => exact h
  | cons draft drafts ih =>
    have hsame : hasField name (draft.withEmission (f draft)) = hasField name draft := rfl
    unfold inFrontOf at h ih ⊢
    unfold Draft.replaceFirst
    cases hp : hasField name draft with
    | true =>
      have hnone : Tallying false [] := fun _ hmem => absurd hmem List.not_mem_nil
      split
      · rwa [List.takeWhile_cons_of_neg (by rw [hsame, hp]; decide)]
      · rwa [List.takeWhile_cons_of_neg (by rw [hp]; decide)]
    | false =>
      rw [List.takeWhile_cons_of_pos (by rw [hp]; rfl)] at h
      obtain ⟨hdraft, hrest⟩ := List.forall_mem_cons.mp h
      split
      · rw [List.takeWhile_cons_of_pos (by rw [hsame, hp]; rfl)]
        exact List.forall_mem_cons.mpr ⟨hf draft, hrest⟩
      · rw [List.takeWhile_cons_of_pos (by rw [hp]; rfl)]
        exact List.forall_mem_cons.mpr ⟨hdraft, ih hrest⟩

end Draft

/-! ## §3. Statements -/

/-- A statement with a source may give out numbers, and nothing in front of its source does. -/
def SourceReady (loud : Bool) (node : Node) (children : List Draft) : Prop :=
  (node.childByField? "source").isSome = true →
    loud = true ∧ Draft.Ready (Draft.hasField "source") node children

theorem tallying_replaceClause {kind text : String} (h : Draft.Tallying loud children) :
    Draft.Tallying loud (replaceClause kind text children) :=
  h.replaceFirst fun _ _ => tallies_pure (Code.numbers_ofText _)

/-- The clause of a statement may have been replaced by a text. -/
theorem SourceReady.replaceClause {kind text : String} (h : SourceReady loud node children) :
    SourceReady loud node (replaceClause kind text children) := by
  intro hsome
  obtain ⟨hloud, hready⟩ := h hsome
  exact ⟨hloud, (Draft.map_node_replaceFirst _ _ _).trans hready.nodes_eq,
    tallying_replaceClause hready.tallying,
    hready.quiet.inFrontOf_replaceFirst fun _ => tallies_pure (Code.numbers_ofText _)⟩

/-- The source of a statement comes first among its placeholders. -/
theorem SourceReady.tallies {specifier : Text} {source : Node} (h : SourceReady loud node children)
    (hsource : node.childByField? "source" = some source) :
    Tallies 0 [] Code.numbers loud (recordImport specifier >>= fun literal =>
      Draft.assemble context node (replaceSource literal children)) := by
  obtain ⟨rfl, hready⟩ := h (by rw [hsource, Option.isSome_some])
  obtain ⟨found, hfound, -⟩ := Draft.exists_find?_of_childByField? hready.nodes_eq hsource
  refine tallies_recordImport_bind fun number => ?_
  exact Draft.tallies_assemble_replaceFirst hready.tallying hready.quiet hfound
    (tallies_pure (Code.numbers_site number))

theorem tallies_keptImport (h : SourceReady loud node children) :
    Tallies 0 [] Code.numbers loud (keptImport context node children) :=
  silent_demand.bind fun _ hsource => h.tallies hsource

theorem tallies_importStatement (h : SourceReady loud node children) :
    Tallies 0 [] Code.numbers loud (importStatement context node children) := by
  unfold importStatement
  dsimp only
  split
  · exact tallies_pure Code.numbers_nil
  · split
    · exact silent_reject.bind fun _ (hfalse : False) => hfalse.elim
    · split
      · exact tallies_keptImport h
      · next clause _ =>
        have hnote : Silent (noteReact context clause) fun _ => True :=
          silent_modify (fun _ => rfl) fun _ => rfl
        refine hnote.bind fun _ _ => ?_
        split
        · exact tallies_pure Code.numbers_nil
        · exact tallies_keptImport h.replaceClause

theorem tallies_keptExport (hchildren : Draft.Tallying loud children)
    (h : SourceReady loud node children) :
    Tallies 0 [] Code.numbers loud (keptExport context node children) := by
  unfold keptExport
  split
  · exact Draft.tallies_assemble hchildren
  · next source hsource => exact h.tallies hsource

theorem tallies_exportStatement (hchildren : Draft.Tallying loud children)
    (h : SourceReady loud node children) :
    Tallies 0 [] Code.numbers loud (exportStatement context node children) := by
  unfold exportStatement
  dsimp only
  split
  · exact tallies_pure Code.numbers_nil
  · split
    · exact silent_reject.bind fun _ (hfalse : False) => hfalse.elim
    · split
      · exact tallies_keptExport hchildren h
      · split
        · exact tallies_pure Code.numbers_nil
        · exact tallies_keptExport (tallying_replaceClause hchildren) h.replaceClause

/-! ## §4. Calls -/

/-- The literal of an imported call comes two levels down, first among the arguments. -/
theorem tallies_callExpression (hkind : node.kind = "call_expression")
    (h : Draft.Prepared loud node children) :
    Tallies 0 [] Code.numbers loud (callExpression context node children) := by
  unfold callExpression
  split
  · exact Draft.tallies_assemble h.orderly.tallying
  · next first hfirst =>
    have himports : importsSpecifier node = true := by
      unfold importsSpecifier
      rw [hkind]
      exact Option.isSome_iff_exists.mpr ⟨first, hfirst⟩
    obtain ⟨rfl, hquiet⟩ := h.literal himports
    unfold importedLiteral? at hfirst
    obtain ⟨function, -, hfirst⟩ := Option.bind_eq_some_iff.mp hfirst
    obtain ⟨arguments, harguments, hfirst⟩ := Option.bind_eq_some_iff.mp hfirst
    obtain ⟨argument, hargument, -⟩ := Option.bind_eq_some_iff.mp hfirst
    obtain ⟨found, hfound, rfl⟩ := Draft.exists_find?_of_childByField? h.nodes_eq harguments
    have horderly : found.Orderly true := h.orderly found (List.mem_of_find?_eq_some hfound)
    have hinner : Draft.AllOrderly true found.children := horderly.children
    have hnamed : ∃ named, found.children.find? Draft.isNamed = some named := by
      unfold Node.namedChildren at hargument
      rw [List.head?_filter, ← horderly.nodes_eq, List.find?_map] at hargument
      obtain ⟨named, hnamed, -⟩ := Option.map_eq_some_iff.mp hargument
      exact ⟨named, hnamed⟩
    obtain ⟨named, hnamed⟩ := hnamed
    unfold Draft.inFrontOfLiteral at hquiet
    rw [if_pos (by rw [hkind]; rfl), hfound, Option.map_some, Option.getD_some] at hquiet
    -- quiet is both what stands in front of the arguments and what stands in front of the first one
    obtain ⟨houter, hinside⟩ := List.forall_mem_append.mp hquiet
    refine tallies_recordImport_bind fun number => ?_
    refine Draft.tallies_assemble_replaceFirst h.orderly.tallying houter hfound ?_
    exact Draft.tallies_assemble_replaceFirst hinner.tallying hinside hnamed
      (tallies_pure (Code.numbers_site number))

/-! ## §5. The rule for a node -/

theorem tallies_emitDemanded {draft? : Option Draft}
    (h : ∀ draft, draft? = some draft → draft.Orderly loud) :
    Tallies 0 [] Code.numbers loud (emitDemanded draft?) :=
  silent_demand.bind fun draft hdraft => (h draft hdraft).emission

theorem tallies_fieldDefinition (h : Draft.AllOrderly loud children) :
    Tallies 0 [] Code.numbers loud (fieldDefinition context node children) := by
  unfold fieldDefinition
  split
  · exact tallies_pure Code.numbers_nil
  · exact Draft.tallies_dropTokens h.tallying

theorem Draft.Prepared.sourceReady (h : Draft.Prepared loud node children)
    (hkind : node.kind = "import_statement" ∨ node.kind = "export_statement") :
    SourceReady loud node children := by
  intro hsome
  have himports : importsSpecifier node = true := by
    unfold importsSpecifier
    rcases hkind with hkind | hkind <;> rw [hkind] <;> exact hsome
  have hcall : ¬ (node.kind == "call_expression") = true := by
    rcases hkind with hkind | hkind <;> rw [hkind] <;> decide
  obtain ⟨rfl, hquiet⟩ := h.literal himports
  unfold Draft.inFrontOfLiteral at hquiet
  rw [if_neg hcall] at hquiet
  exact ⟨rfl, h.nodes_eq, h.orderly.tallying, hquiet⟩

theorem tallies_constructEmission (h : Draft.Prepared loud node children) :
    Tallies 0 [] Code.numbers loud (constructEmission context node children) := by
  have hchildren := h.orderly
  unfold constructEmission
  split
  · next hkind => exact tallies_importStatement (h.sourceReady (.inl hkind))
  · next hkind => exact tallies_exportStatement hchildren.tallying (h.sourceReady (.inr hkind))
  · next hkind => exact tallies_callExpression hkind h
  · exact tallies_emitDemanded fun draft hdraft => hchildren.named draft (List.mem_of_getLast? hdraft)
  · exact Draft.tallies_dropTokens hchildren.tallying
  · exact Draft.tallies_dropTokens hchildren.tallying
  · exact tallies_fieldDefinition hchildren
  · exact Draft.tallies_dropTokens hchildren.tallying
  · exact tallies_reject
  · exact tallies_reject
  · exact tallies_methodDefinition hchildren
  · exact tallies_enumDeclaration hchildren
  · split
    · exact tallies_jsxElement hchildren
    · exact Draft.tallies_assemble hchildren.tallying

/-- A node tallies if its children do and no numbers are given out in front of its literal. -/
theorem tallies_emission (h : Draft.Prepared loud node children) :
    Tallies 0 [] Code.numbers loud (emission context node children) := by
  unfold emission
  split
  · exact tallies_pure Code.numbers_nil
  · split
    · exact tallies_emitDemanded fun draft hdraft =>
        h.orderly.named draft (List.mem_of_head? hdraft)
    · split
      · exact tallies_pure Code.numbers_nil
      · exact tallies_constructEmission h

/-! ## §6. Trees -/

theorem inFrontOf_hasField_map_draft (context : Context) (name : String) (node : Node) :
    Draft.inFrontOf (Draft.hasField name) (node.children.map (draft context))
      = (childrenInFront name node).map (draft context) := by
  have hfield : (!Draft.hasField name ·) ∘ draft context
      = fun child : Node => !(child.field? == some name) := by
    funext child
    simp [Draft.hasField]
  unfold Draft.inFrontOf childrenInFront
  rw [List.takeWhile_map, hfield]

/-- The drafts in front of the literal are those of the nodes in front of it. -/
theorem inFrontOfLiteral_map_draft (context : Context) (node : Node) :
    Draft.inFrontOfLiteral node (node.children.map (draft context))
      = (inFrontOfLiteral node).map (draft context) := by
  have hfind : (node.children.map (draft context)).find? (Draft.hasField "arguments")
      = (node.childByField? "arguments").map (draft context) := by
    have hfield : Draft.hasField "arguments" ∘ draft context
        = fun child : Node => child.field? == some "arguments" := by
      funext child
      simp [Draft.hasField]
    rw [List.find?_map, hfield]
    rfl
  have hnamed : (!Draft.isNamed ·) ∘ draft context = (!Node.isNamed ·) := by
    funext child
    simp [Draft.isNamed]
  unfold Draft.inFrontOfLiteral inFrontOfLiteral
  rw [hfind, inFrontOf_hasField_map_draft, inFrontOf_hasField_map_draft]
  split
  · rw [List.map_append]
    cases node.childByField? "arguments" with
    | none => rfl
    | some arguments =>
      simp only [Option.map_some, Option.getD_some]
      unfold Draft.inFrontOf
      rw [children_draft, List.takeWhile_map, hnamed]
  · rfl

/-- What stands in front of the literal is a child or a child of one. -/
theorem mem_inFrontOfLiteral {other : Node} (h : other ∈ inFrontOfLiteral node) :
    other ∈ node.children ∨ ∃ child ∈ node.children, other ∈ child.children := by
  have hfront : ∀ name, childrenInFront name node ⊆ node.children :=
    fun name => (List.takeWhile_sublist _).subset
  unfold inFrontOfLiteral at h
  split at h
  · rcases List.mem_append.mp h with hmem | hmem
    · exact .inl (hfront _ hmem)
    · cases harguments : node.childByField? "arguments" with
      | none =>
        rw [harguments] at hmem
        exact absurd hmem List.not_mem_nil
      | some arguments =>
        rw [harguments, Option.map_some, Option.getD_some] at hmem
        exact .inr ⟨arguments, List.mem_of_find?_eq_some harguments,
          (List.takeWhile_sublist _).subset hmem⟩
  · exact .inl (hfront _ h)

/-- The draft of a node is orderly if the drafts of its children, and of theirs, are. -/
theorem orderly_of_children (h : ImportsApart node)
    (hchild : ∀ child ∈ node.children, (draft context child).Orderly (holdsImport child))
    (hgrandchild : ∀ child ∈ node.children, ∀ grandchild ∈ child.children,
      (draft context grandchild).Orderly (holdsImport grandchild)) :
    (draft context node).Orderly (holdsImport node) := by
  have hholds := holdsImport_eq node
  have hprepared : Draft.Prepared (holdsImport node) node (node.children.map (draft context)) := by
    refine ⟨map_node_draft context _, fun child hmem => ?_, fun himports => ⟨?_, ?_⟩⟩
    · -- a node holds what its children hold
      obtain ⟨original, horiginal, rfl⟩ := List.mem_map.mp hmem
      refine (hchild original horiginal).mono fun hloud => ?_
      rw [hholds, Bool.or_eq_true, List.any_map, List.any_eq_true]
      exact .inr ⟨original, horiginal, hloud⟩
    · rw [hholds, himports, Bool.true_or]
    · rw [inFrontOfLiteral_map_draft]
      intro other hmem
      obtain ⟨original, horiginal, rfl⟩ := List.mem_map.mp hmem
      -- nothing in front holds an import, so it is as quiet as it has to be
      rw [← h.inFront himports original horiginal]
      rcases mem_inFrontOfLiteral horiginal with hoffspring | ⟨child, hoffspring, hinside⟩
      · exact (hchild original hoffspring).emission
      · exact (hgrandchild child hoffspring original hinside).emission
  rw [draft_eq]
  exact .intro hprepared.nodes_eq hprepared.orderly (tallies_emission hprepared)

/-- **Every node tallies, and one in which there is no import is quiet.** -/
theorem orderly_draft (context : Context) (node : Node) (h : ImportsApart node) :
    (draft context node).Orderly (holdsImport node) := by
  -- a literal may come two levels down, so the children of a node are taken along
  suffices hboth : (draft context node).Orderly (holdsImport node) ∧
      ∀ child ∈ node.children, (draft context child).Orderly (holdsImport child) from hboth.1
  induction node using Syntax.Node.forall_of_children with
  | h node ih =>
    have hchild : ∀ child ∈ node.children, (draft context child).Orderly (holdsImport child) :=
      fun child hmem => (ih child hmem (h.child hmem)).1
    exact ⟨orderly_of_children h hchild fun child hmem => (ih child hmem (h.child hmem)).2, hchild⟩

end LivePreview.Lowering
