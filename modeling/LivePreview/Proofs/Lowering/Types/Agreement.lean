/-
  LivePreview.Proofs.Lowering.Types.Agreement
  ───────────────────────────────────────────
  **Steps that agree.**

  Two steps *agree* if they yield the same and leave the same behind from every state, or
  fail for the same cause, be it on another line (`Agree`).  Two drafts are alike if
  their nodes are, if their steps agree, and if the drafts in them are alike, provided
  that the nodes are no types and hold none beside them (`Draft.Alike`).  What is
  assembled from alike drafts agrees (`agree_assemble`): all that it takes from the two
  sources stands between the drafts.

  Clauses and sources of imports and exports are copied in one piece, so they are the same
  in alike statements (`clauseText?_eq`, `exportClauseText?_eq`, `specifierOf_eq`).  The
  statements record the same specifiers and are assembled from alike drafts.
-/
import LivePreview.Proofs.Lowering.Emit
import LivePreview.Proofs.Lowering.Types.Alike
import LivePreview.Proofs.Result

namespace LivePreview.Lowering

open LivePreview.Syntax (Node)

section Steps

variable {α β : Type} {context other : Context} {a b : Node}

/-! ## §1. Agreement -/

/-- The failure without the line that it names. -/
def Failure.unlined : Failure → Failure
  | .rejected rejection => .rejected { rejection with line := 0 }
  | failure => failure

/-- From every state the steps yield the same, or fail for the same cause. -/
def Agree (step step' : Emit α) : Prop :=
  ∀ state, (step.run state).mapError Failure.unlined = (step'.run state).mapError Failure.unlined

theorem Agree.refl (step : Emit α) : Agree step step :=
  fun _ => rfl

theorem Agree.bind {step step' : Emit α} {next next' : α → Emit β} (h : Agree step step')
    (hnext : ∀ a, Agree (next a) (next' a)) : Agree (step >>= next) (step' >>= next') := by
  intro state
  rw [StateT.run_bind, StateT.run_bind]
  exact Result.mapError_bind_congr (h state) fun result => hnext result.1 result.2

/-- The same step, before others that agree. -/
theorem Agree.then (step : Emit α) {next next' : α → Emit β} (hnext : ∀ a, Agree (next a) (next' a)) :
    Agree (step >>= next) (step >>= next') :=
  (Agree.refl step).bind hnext

/-- The lines need not be the same. -/
theorem agree_reject {cause : Cause} :
    Agree (reject context a cause : Emit α) (reject other b cause) :=
  fun _ => rfl

/-- Nothing follows on a rejection. -/
theorem agree_reject_bind {cause : Cause} {next next' : α → Emit β} :
    Agree (reject context a cause >>= next) (reject other b cause >>= next') :=
  fun _ => rfl

/-- What the grammar demands is missing in both cases or in none. -/
theorem agree_demand {γ δ : Type} {R : γ → δ → Prop} {c? : Option γ} {d? : Option δ}
    (h : Option.Rel R c? d?) {next : γ → Emit β} {next' : δ → Emit β}
    (hnext : ∀ c d, c? = some c → d? = some d → R c d → Agree (next c) (next' d)) :
    Agree (demand c? >>= next) (demand d? >>= next') := by
  cases h with
  | none => exact fun _ => rfl
  | some hcd => exact hnext _ _ rfl rfl hcd

/-! ## §2. Alike drafts -/

namespace Draft

/-- The drafts are those of alike nodes, and of the nodes in them, and their steps agree. -/
inductive Alike (context other : Context) : Draft → Draft → Prop where
  | intro {draft draft' : Draft}
    (hnode : Lowering.Alike context.source other.source draft.node draft'.node)
    (hnodes : draft.children.map Draft.node = draft.node.children)
    (hnodes' : draft'.children.map Draft.node = draft'.node.children)
    (hchildren : isPlain draft.node = true →
      List.Forall₂ (Alike context other) draft.children draft'.children)
    (hemission : Agree draft.emission draft'.emission) : Alike context other draft draft'

/-- The nodes are alike and plain, and the drafts are those of their children. -/
structure Matching (context other : Context) (a b : Node) (drafts drafts' : List Draft) : Prop where
  alike : Lowering.Alike context.source other.source a b
  isPlain : isPlain a = true
  nodes_eq : drafts.map Draft.node = a.children
  nodes_eq' : drafts'.map Draft.node = b.children
  drafts : List.Forall₂ (Draft.Alike context other) drafts drafts'

/-- The drafts can stand for each other where only their steps are needed. -/
structure Even (context other : Context) (draft draft' : Draft) : Prop where
  node : Lowering.Alike context.source other.source draft.node draft'.node
  emission : Agree draft.emission draft'.emission

namespace Alike

variable {draft draft' : Draft}

theorem node (h : Draft.Alike context other draft draft') :
    Lowering.Alike context.source other.source draft.node draft'.node := by
  cases h with
  | intro hnode _ _ _ _ => exact hnode

theorem emission (h : Draft.Alike context other draft draft') :
    Agree draft.emission draft'.emission := by
  cases h with
  | intro _ _ _ _ hemission => exact hemission

theorem even (h : Draft.Alike context other draft draft') : Even context other draft draft' :=
  ⟨h.node, h.emission⟩

theorem matching (h : Draft.Alike context other draft draft') (hplain : Lowering.isPlain draft.node = true) :
    Matching context other draft.node draft'.node draft.children draft'.children := by
  cases h with
  | intro hnode hnodes hnodes' hchildren _ => exact ⟨hnode, hplain, hnodes, hnodes', hchildren hplain⟩

end Alike

/-- What is found among drafts, and copied in one piece, has no types in it. -/
theorem Matching.rel_whole {drafts drafts' : List Draft} (h : Matching context other a b drafts drafts')
    {found found' : Option Draft} (hrel : Option.Rel (Draft.Alike context other) found found')
    (hmem : (found.map Draft.node).toList ⊆ wholeParts a) :
    Option.Rel (fun draft draft' => Draft.Alike context other draft draft' ∧
      AlikeWhole context.source other.source draft.node draft'.node) found found' := by
  cases hrel with
  | none => exact .none
  | some hdraft => exact .some ⟨hdraft, h.alike.whole (hmem (Option.mem_toList.mpr rfl)) hdraft.node⟩

/-- The drafts are those of children of the nodes. -/
theorem Matching.forall₂_mem {drafts drafts' : List Draft} (h : Matching context other a b drafts drafts') :
    List.Forall₂ (fun draft draft' => draft.node ∈ a.children ∧ Draft.Alike context other draft draft')
      drafts drafts' := by
  refine (forall₂_zip h.drafts).imp fun draft draft' ⟨hmem, halike⟩ => ⟨?_, halike⟩
  rw [← h.nodes_eq]
  exact List.mem_map_of_mem (List.of_mem_zip hmem).1

section Choice

variable {drafts drafts' : List Draft}

theorem alike_named (h : List.Forall₂ (Draft.Alike context other) drafts drafts') :
    List.Forall₂ (Draft.Alike context other) (named drafts) (named drafts') :=
  forall₂_filter h fun _ _ hdraft => hdraft.node.isNamed_eq

theorem Even.hasField_eq {draft draft' : Draft} (h : Even context other draft draft') (name : String) :
    hasField name draft = hasField name draft' := by
  unfold hasField
  rw [h.node.field?_eq]

theorem Even.isTokenAmong_eq {draft draft' : Draft} (h : Even context other draft draft')
    (kinds : List String) : isTokenAmong kinds draft = isTokenAmong kinds draft' := by
  unfold isTokenAmong isNamed kind
  rw [h.node.isNamed_eq, h.node.kind_eq]

theorem Alike.kind_eq {draft draft' : Draft} (h : Draft.Alike context other draft draft') :
    draft.kind = draft'.kind :=
  h.node.kind_eq

theorem alike_byField? (h : List.Forall₂ (Draft.Alike context other) drafts drafts') (name : String) :
    Option.Rel (Draft.Alike context other) (byField? name drafts) (byField? name drafts') :=
  rel_find? h fun _ _ hdraft => hdraft.even.hasField_eq name

end Choice

/-! ## §3. Assembly -/

/-- The drafts can stand for each other, and the text between them is the same. -/
structure Assembling (context other : Context) (a b : Node) (drafts drafts' : List Draft) : Prop where
  gaps_eq : Node.gaps context.source a.stop a.start (drafts.map Draft.node)
    = Node.gaps other.source b.stop b.start (drafts'.map Draft.node)
  drafts : List.Forall₂ (Even context other) drafts drafts'

section Assembly

variable {drafts drafts' : List Draft}

theorem Matching.assembling (h : Matching context other a b drafts drafts') :
    Assembling context other a b drafts drafts' := by
  refine ⟨?_, h.drafts.imp fun _ _ hdraft => hdraft.even⟩
  rw [h.nodes_eq, h.nodes_eq']
  exact h.alike.gaps_eq h.isPlain

theorem even_replaceFirst {R : Draft → Draft → Prop} (h : List.Forall₂ R drafts drafts')
    (hR : ∀ draft draft', R draft draft' → Even context other draft draft') {p q : Draft → Bool}
    (hp : ∀ draft draft', R draft draft' → p draft = q draft') {f g : Draft → Emit Code}
    (hf : ∀ draft draft', R draft draft' → p draft = true → Agree (f draft) (g draft')) :
    List.Forall₂ (Even context other) (replaceFirst p f drafts) (replaceFirst q g drafts') := by
  induction h with
  | nil => exact .nil
  | @cons draft draft' drafts drafts' hdraft hrest ih =>
    unfold replaceFirst
    rw [← hp _ _ hdraft]
    split
    · next hfirst =>
      exact .cons ⟨(hR _ _ hdraft).node, hf _ _ hdraft hfirst⟩ (hrest.imp hR)
    · exact .cons (hR _ _ hdraft) ih

/-- Drafts may be exchanged on both sides. -/
theorem Assembling.replaceFirst (h : Assembling context other a b drafts drafts') {p q : Draft → Bool}
    (hp : ∀ draft draft', Even context other draft draft' → p draft = q draft')
    {f g : Draft → Emit Code}
    (hf : ∀ draft draft', Even context other draft draft' → Agree (f draft) (g draft')) :
    Assembling context other a b (replaceFirst p f drafts) (replaceFirst q g drafts') := by
  refine ⟨?_, even_replaceFirst h.drafts (fun _ _ => id) hp fun _ _ hdraft _ => hf _ _ hdraft⟩
  rw [map_node_replaceFirst, map_node_replaceFirst]
  exact h.gaps_eq

theorem Assembling.replaceEach (h : Assembling context other a b drafts drafts') {p q : Draft → Bool}
    (hp : ∀ draft draft', Even context other draft draft' → p draft = q draft')
    {f g : Draft → Emit Code}
    (hf : ∀ draft draft', Even context other draft draft' → Agree (f draft) (g draft')) :
    Assembling context other a b (replaceEach p f drafts) (replaceEach q g drafts') := by
  refine ⟨?_, ?_⟩
  · rw [map_node_replaceEach, map_node_replaceEach]
    exact h.gaps_eq
  · unfold Draft.replaceEach
    rw [List.forall₂_map_left_iff, List.forall₂_map_right_iff]
    refine h.drafts.imp fun draft draft' hdraft => ?_
    rw [hp _ _ hdraft]
    split
    · exact ⟨hdraft.node, hf _ _ hdraft⟩
    · exact hdraft

theorem agree_assembleFrom {stop stop' position position' : Nat}
    (hgaps : Node.gaps context.source stop position (drafts.map Draft.node)
      = Node.gaps other.source stop' position' (drafts'.map Draft.node))
    (h : List.Forall₂ (Even context other) drafts drafts') :
    Agree (assembleFrom context.source stop position drafts)
      (assembleFrom other.source stop' position' drafts') := by
  induction h generalizing position position' with
  | nil =>
    unfold assembleFrom
    rw [(List.cons.inj hgaps).1]
    exact .refl _
  | cons hdraft _ ih =>
    obtain ⟨hgap, hgaps⟩ := List.cons.inj hgaps
    unfold assembleFrom
    refine hdraft.emission.bind fun code => (ih hgaps).bind fun rest => ?_
    rw [hgap]
    exact .refl _

/-- **What is assembled from alike drafts agrees.** -/
theorem Assembling.agree (h : Assembling context other a b drafts drafts') :
    Agree (assemble context a drafts) (assemble other b drafts') := by
  have hgaps := h.gaps_eq
  unfold assemble
  cases hdrafts : h.drafts with
  | nil =>
    -- a node without children is one gap
    have htext : context.text a = other.text b := (List.cons.inj hgaps).1
    rw [htext]
    exact .refl _
  | cons _ _ => exact agree_assembleFrom hgaps h.drafts

theorem Matching.agree_dropTokens (h : Matching context other a b drafts drafts')
    (kinds : List String) :
    Agree (dropTokens context kinds a drafts) (dropTokens other kinds b drafts') :=
  (h.assembling.replaceEach (fun _ _ hdraft => hdraft.isTokenAmong_eq kinds) fun _ _ _ => .refl _).agree

end Assembly

end Draft

end Steps

section Statements

variable {context other : Context} {a b : Node} {drafts drafts' : List Draft}

/-! ## §4. Texts -/

theorem specifierOf_eq {source other : String} (h : AlikeWhole source other a b) :
    specifierOf source a = specifierOf other b := by
  have hparts : a.namedChildren.flatMap (partPoints source) = b.namedChildren.flatMap (partPoints other) := by
    refine flatMap_eq_of_forall₂ h.namedChildren fun part part' hpart => ?_
    unfold partPoints
    rw [hpart.text_eq, hpart.alike.kind_eq]
  unfold specifierOf
  rw [isEmpty_eq_of_forall₂ h.namedChildren, h.text_eq, hparts]

theorem contextText_eq (h : AlikeWhole context.source other.source a b) :
    context.text a = other.text b :=
  h.text_eq

theorem map_contextText_eq {parts parts' : List Node}
    (h : List.Forall₂ (AlikeWhole context.source other.source) parts parts') :
    parts.map context.text = parts'.map other.text :=
  map_eq_of_forall₂ h fun _ _ => contextText_eq

theorem isTypeOnly_eq {source other : String} (h : AlikeWhole source other a b) :
    isTypeOnly a = isTypeOnly b :=
  h.alike.hasToken_eq h.isPlain "type"

theorem alikeWhole_keptImports (h : AlikeWhole context.source other.source a b) :
    List.Forall₂ (AlikeWhole context.source other.source) (keptImports a) (keptImports b) :=
  forall₂_filter h.namedChildren fun part part' hpart => by rw [hpart.alike.kind_eq, isTypeOnly_eq hpart]

theorem clauseParts_eq (h : AlikeWhole context.source other.source a b) :
    clauseParts context a = clauseParts other b := by
  have hkept := alikeWhole_keptImports h
  unfold clauseParts
  rw [h.alike.kind_eq, contextText_eq h]
  -- whether any binding is kept has to be decided for both lists at once
  generalize keptImports a = kept at hkept ⊢
  generalize keptImports b = kept' at hkept ⊢
  cases hkept with
  | nil => rfl
  | cons hfirst hrest =>
    dsimp only
    rw [map_contextText_eq (.cons hfirst hrest)]

/-- Alike import clauses keep the same bindings. -/
theorem clauseText?_eq (h : AlikeWhole context.source other.source a b) :
    clauseText? context a = clauseText? other b := by
  have hparts : a.namedChildren.flatMap (clauseParts context) = b.namedChildren.flatMap (clauseParts other) :=
    flatMap_eq_of_forall₂ h.namedChildren fun _ _ => clauseParts_eq
  have hnamed : a.namedChildren.any (·.kind == "named_imports")
      = b.namedChildren.any (·.kind == "named_imports") :=
    any_eq_of_forall₂ h.namedChildren fun _ _ hpart => by rw [hpart.alike.kind_eq]
  unfold clauseText?
  rw [hparts, hnamed, contextText_eq h]

theorem isReact_eq (h : AlikeWhole context.source other.source a b) :
    isReact context a = isReact other b := by
  unfold isReact
  rw [contextText_eq h]

theorem partBindsReact_eq (h : AlikeWhole context.source other.source a b) :
    partBindsReact context a = partBindsReact other b := by
  have hnames : a.namedChildren.any (isReact context) = b.namedChildren.any (isReact other) :=
    any_eq_of_forall₂ h.namedChildren fun _ _ => isReact_eq
  have hlocal : ((keptImports a).any fun specifier => (localName? specifier).any (isReact context))
      = (keptImports b).any fun specifier => (localName? specifier).any (isReact other) :=
    any_eq_of_forall₂ (alikeWhole_keptImports h) fun _ _ hspecifier =>
      any_eq_of_rel (rel_orElse (hspecifier.childByField? "alias") (hspecifier.childByField? "name"))
        fun _ _ => isReact_eq
  unfold partBindsReact
  rw [h.alike.kind_eq, isReact_eq h, hnames, hlocal]

theorem noteReact_eq (h : AlikeWhole context.source other.source a b) :
    noteReact context a = noteReact other b := by
  have hbinds : a.namedChildren.any (partBindsReact context) = b.namedChildren.any (partBindsReact other) :=
    any_eq_of_forall₂ h.namedChildren fun _ _ => partBindsReact_eq
  unfold noteReact
  rw [hbinds]

/-- Alike export clauses keep the same names. -/
theorem exportClauseText?_eq (h : AlikeWhole context.source other.source a b) :
    exportClauseText? context a = exportClauseText? other b := by
  have hspecifiers : List.Forall₂ (AlikeWhole context.source other.source)
      (a.namedChildren.filter (·.kind == "export_specifier"))
      (b.namedChildren.filter (·.kind == "export_specifier")) :=
    forall₂_filter h.namedChildren fun _ _ hpart => by rw [hpart.alike.kind_eq]
  have hkept : List.Forall₂ (AlikeWhole context.source other.source)
      ((a.namedChildren.filter (·.kind == "export_specifier")).filter (!isTypeOnly ·))
      ((b.namedChildren.filter (·.kind == "export_specifier")).filter (!isTypeOnly ·)) :=
    forall₂_filter hspecifiers fun _ _ hpart => by rw [isTypeOnly_eq hpart]
  unfold exportClauseText?
  dsimp only
  rw [isEmpty_eq_of_forall₂ hspecifiers, contextText_eq h]
  generalize (a.namedChildren.filter (·.kind == "export_specifier")).filter (!isTypeOnly ·) = kept at hkept ⊢
  generalize (b.namedChildren.filter (·.kind == "export_specifier")).filter (!isTypeOnly ·) = kept' at hkept ⊢
  cases hkept with
  | nil => rfl
  | cons hfirst hrest => exact congrArg (fun texts => some (braced texts)) (map_contextText_eq (.cons hfirst hrest))

/-! ## §5. Statements -/

namespace Draft.Assembling

theorem replaceClause {kind text : String} (h : Draft.Assembling context other a b drafts drafts') :
    Draft.Assembling context other a b (replaceClause kind text drafts) (replaceClause kind text drafts') :=
  h.replaceFirst (fun draft draft' hdraft => by
    unfold Draft.isNamed Draft.kind
    rw [hdraft.node.isNamed_eq, hdraft.node.kind_eq]) fun _ _ _ => .refl _

theorem replaceSource {literal : Code} (h : Draft.Assembling context other a b drafts drafts') :
    Draft.Assembling context other a b (replaceSource literal drafts) (replaceSource literal drafts') :=
  h.replaceFirst (fun _ _ hdraft => hdraft.hasField_eq "source") fun _ _ _ => .refl _

/-- The source of a statement is recorded, and its literal put in place. -/
theorem agree_recordSource (h : Draft.Assembling context other a b drafts drafts') {c d : Node}
    (hsource : AlikeWhole context.source other.source c d) :
    Agree
      (recordImport (specifierOf context.source c) >>= fun literal =>
        Draft.assemble context a (Lowering.replaceSource literal drafts))
      (recordImport (specifierOf other.source d) >>= fun literal =>
        Draft.assemble other b (Lowering.replaceSource literal drafts')) := by
  rw [specifierOf_eq hsource]
  exact .then _ fun literal => h.replaceSource.agree

end Draft.Assembling

/-- The statements have alike sources, or none. -/
def SourcesAlike (context other : Context) (a b : Node) : Prop :=
  Option.Rel (AlikeWhole context.source other.source) (a.childByField? "source") (b.childByField? "source")

/-- The source of a statement is copied in one piece. -/
theorem sourcesAlike (h : Draft.Matching context other a b drafts drafts')
    (hwhole : (a.childByField? "source").toList ⊆ wholeParts a) : SourcesAlike context other a b :=
  h.alike.rel_whole (h.alike.childByField? h.isPlain "source") hwhole

theorem agree_keptImport (h : Draft.Assembling context other a b drafts drafts')
    (hsource : SourcesAlike context other a b) :
    Agree (keptImport context a drafts) (keptImport other b drafts') :=
  agree_demand hsource fun _ _ _ _ hcd => h.agree_recordSource hcd

theorem agree_importStatement (h : Draft.Matching context other a b drafts drafts')
    (hkind : a.kind = "import_statement") :
    Agree (importStatement context a drafts) (importStatement other b drafts') := by
  have hwhole : wholeParts a = (a.childByField? "source").toList
      ++ (a.namedChildren.find? (·.kind == "import_clause")).toList := by
    unfold wholeParts
    rw [hkind]
    rfl
  have hsource : SourcesAlike context other a b :=
    sourcesAlike h (by rw [hwhole]; exact List.subset_append_left _ _)
  have hclause := h.alike.rel_whole (h.alike.find?_kind h.isPlain "import_clause")
    (by rw [hwhole]; exact List.subset_append_right _ _)
  have hrequire : a.namedChildren.any (·.kind == "import_require_clause")
      = b.namedChildren.any (·.kind == "import_require_clause") :=
    any_eq_of_forall₂ (h.alike.namedChildren h.isPlain) fun _ _ hpart => by rw [hpart.kind_eq]
  unfold importStatement
  dsimp only
  rw [h.alike.hasToken_eq h.isPlain, hrequire]
  split
  · exact .refl _
  · split
    · exact agree_reject_bind
    · rcases rel_cases hclause with ⟨ha, hb⟩ | ⟨c, d, ha, hb, hcd⟩
      · rw [ha, hb]
        exact agree_keptImport h.assembling hsource
      · rw [ha, hb]
        dsimp only
        rw [noteReact_eq hcd, clauseText?_eq hcd]
        refine .then _ fun _ => ?_
        split
        · exact .refl _
        · exact agree_keptImport h.assembling.replaceClause hsource

theorem agree_keptExport (h : Draft.Assembling context other a b drafts drafts')
    (hsource : SourcesAlike context other a b) :
    Agree (keptExport context a drafts) (keptExport other b drafts') := by
  unfold keptExport
  rcases rel_cases hsource with ⟨ha, hb⟩ | ⟨c, d, ha, hb, hcd⟩
  · rw [ha, hb]
    exact h.agree
  · rw [ha, hb]
    exact h.agree_recordSource hcd

theorem exportsTypes_eq (h : Draft.Matching context other a b drafts drafts') :
    exportsTypes a = exportsTypes b := by
  have hdeclaration : (a.childByField? "declaration").any (fun d => typeOnlyDeclarations.contains d.kind)
      = (b.childByField? "declaration").any (fun d => typeOnlyDeclarations.contains d.kind) :=
    any_eq_of_rel (h.alike.childByField? h.isPlain "declaration") fun _ _ hpart => by rw [hpart.kind_eq]
  have hinterface : a.namedChildren.any (·.kind == "interface_declaration")
      = b.namedChildren.any (·.kind == "interface_declaration") :=
    any_eq_of_forall₂ (h.alike.namedChildren h.isPlain) fun _ _ hpart => by rw [hpart.kind_eq]
  unfold exportsTypes
  rw [h.alike.hasToken_eq h.isPlain, hdeclaration, hinterface]

theorem agree_exportStatement (h : Draft.Matching context other a b drafts drafts')
    (hkind : a.kind = "export_statement") :
    Agree (exportStatement context a drafts) (exportStatement other b drafts') := by
  have hwhole : wholeParts a = (a.childByField? "source").toList
      ++ (a.namedChildren.find? (·.kind == "export_clause")).toList := by
    unfold wholeParts
    rw [hkind]
    rfl
  have hsource : SourcesAlike context other a b :=
    sourcesAlike h (by rw [hwhole]; exact List.subset_append_left _ _)
  have hclause := h.alike.rel_whole (h.alike.find?_kind h.isPlain "export_clause")
    (by rw [hwhole]; exact List.subset_append_right _ _)
  unfold exportStatement
  dsimp only
  rw [exportsTypes_eq h, h.alike.hasToken_eq h.isPlain]
  split
  · exact .refl _
  · split
    · exact agree_reject_bind
    · rcases rel_cases hclause with ⟨ha, hb⟩ | ⟨c, d, ha, hb, hcd⟩
      · rw [ha, hb]
        exact agree_keptExport h.assembling hsource
      · rw [ha, hb]
        dsimp only
        rw [exportClauseText?_eq hcd]
        split
        · exact .refl _
        · exact agree_keptExport h.assembling.replaceClause hsource

/-! ## §6. Calls -/

/-- The arguments of a call are taken apart. -/
theorem isPlain_arguments (h : Alike context.source other.source a b) (hkind : a.kind = "call_expression")
    {arguments : Node} (hmem : arguments ∈ childrenIn "arguments" a) : isPlain arguments = true := by
  refine h.self.1.1.isPlain_of_mem_openParts arguments ?_
  unfold openParts
  rw [hkind]
  exact hmem

theorem alike_importedLiteral? (h : Alike context.source other.source a b) (hplain : isPlain a = true)
    (hkind : a.kind = "call_expression") :
    Option.Rel (Alike context.source other.source) (importedLiteral? a) (importedLiteral? b) := by
  unfold importedLiteral?
  refine rel_bind (h.childByField? hplain "function") fun function function' _ hfunction => ?_
  refine rel_bind (h.childByField? hplain "arguments") fun arguments arguments' hfound harguments => ?_
  -- the first argument is looked for in the arguments, which are plain in a regular tree
  have hopen : isPlain arguments = true :=
    isPlain_arguments h hkind (mem_childrenIn_of_childByField? hfound)
  refine rel_bind (rel_head? (harguments.namedChildren hopen)) fun first first' _ hfirst => ?_
  rw [hfunction.kind_eq, hfirst.kind_eq]
  split
  · exact .some hfirst
  · exact .none

theorem agree_callExpression (h : Draft.Matching context other a b drafts drafts')
    (hkind : a.kind = "call_expression") :
    Agree (callExpression context a drafts) (callExpression other b drafts') := by
  unfold callExpression
  have hwhole : (importedLiteral? a).toList ⊆ wholeParts a := by
    unfold wholeParts
    rw [hkind]
    exact List.Subset.refl _
  rcases rel_cases (h.alike.rel_whole (alike_importedLiteral? h.alike h.isPlain hkind) hwhole) with
    ⟨ha, hb⟩ | ⟨first, first', ha, hb, hfirst⟩
  · rw [ha, hb]
    exact h.assembling.agree
  · rw [ha, hb]
    dsimp only
    rw [specifierOf_eq hfirst]
    refine .then _ fun literal => Draft.Assembling.agree ⟨?_, ?_⟩
    · rw [Draft.map_node_replaceFirst, Draft.map_node_replaceFirst]
      exact h.assembling.gaps_eq
    · -- the literal is exchanged two levels down, so the arguments have to be plain
      refine Draft.even_replaceFirst h.forall₂_mem (fun _ _ hdraft => hdraft.2.even)
        (fun _ _ hdraft => hdraft.2.even.hasField_eq "arguments") fun draft draft' hdraft hfield => ?_
      have harguments := hdraft.2.matching (isPlain_arguments h.alike hkind (List.mem_filter.mpr ⟨hdraft.1, hfield⟩))
      exact (harguments.assembling.replaceFirst (fun _ _ hpart => hpart.node.isNamed_eq)
        fun _ _ _ => .refl _).agree

end Statements

end LivePreview.Lowering
