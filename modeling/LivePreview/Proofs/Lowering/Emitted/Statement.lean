/-
  LivePreview.Proofs.Lowering.Emitted.Statement
  ─────────────────────────────────────────────
  **What a node collects itself.**

  A node itself collects little: an element is noted, an import of `React` is noted, and the
  literal of an import, an export or a call of `import` gets a placeholder and is recorded
  (`State.enter`).  Then its parts are emitted, one after the other (`Opens`).  Here this is
  shown for the rules that record a literal.
-/
import LivePreview.Proofs.Lowering.Emitted.Rules

namespace LivePreview.Lowering

open LivePreview.Syntax (Node)

/-! ## §1. What a node collects -/

/-- A specifier joins the imports, unless it is one of them, and gets the next number. -/
def State.record (state : State) (specifier : Text) : State :=
  { state with
    imports := if state.imports.contains specifier then state.imports else state.imports ++ [specifier]
    sites := state.sites ++ [specifier] }

/-- It is noted whether there is an element, and whether there is an import of `React`. -/
def State.note (state : State) (isElement bindsReact : Bool) : State :=
  { state with
    usesJsx := state.usesJsx || isElement
    bindsReact := state.bindsReact || bindsReact }

/-- The node is an element. -/
def isElement (node : Node) : Bool :=
  elementKinds.contains node.kind

/-- The node is an import statement that binds the name `React` to a value. -/
def importsReact (context : Context) (node : Node) : Bool :=
  node.kind == "import_statement" && !node.hasToken "type"
    && (node.namedChildren.find? (·.kind == "import_clause")).any
      (·.namedChildren.any (partBindsReact context))

/-- The literal of a node whose specifier is recorded. -/
def recordedLiteral? (context : Context) (node : Node) : Option Node :=
  match node.kind with
  | "import_statement" => if importsTypes context node then none else node.childByField? "source"
  | "export_statement" => if exportsNothing context node then none else node.childByField? "source"
  | "call_expression" => importedLiteral? node
  | _ => none

/-- The specifier that a node records. -/
def recordedSpecifier? (context : Context) (node : Node) : Option Text :=
  (recordedLiteral? context node).map (specifierOf context.source)

/-- What a node collects before its parts are emitted. -/
def State.enter (state : State) (context : Context) (node : Node) : State :=
  let noted := state.note (isElement node) (importsReact context node)
  match recordedSpecifier? context node with
  | none => noted
  | some specifier => noted.record specifier

section Enter

variable {context : Context} {node : Node}

theorem run_recordImport (specifier : Text) (state : State) :
    (recordImport specifier).run state = .ok ([.site state.sites.length], state.record specifier) := by
  have hstate : (recordImport specifier).run state = (placeSite specifier).run
      (if state.imports.contains specifier then state
        else { state with imports := state.imports ++ [specifier] }) := rfl
  rw [hstate, State.record]
  split <;> rfl

theorem State.note_false (state : State) : state.note false false = state := by
  unfold State.note
  rw [Bool.or_false, Bool.or_false]

/-- Nothing is noted of a node that is neither an element nor an import. -/
theorem State.note_of_kind (context : Context) {kind : String} (hkind : node.kind = kind)
    (h : kind ∉ "import_statement" :: elementKinds) (state : State) :
    state.note (isElement node) (importsReact context node) = state := by
  obtain ⟨hne, helement⟩ := not_or.mp fun hmem => h (List.mem_cons.mpr hmem)
  unfold isElement importsReact
  rw [hkind, beq_eq_false_iff_ne.mpr hne, Bool.eq_false_iff.mpr fun hmem =>
    helement (List.contains_iff_mem.mp hmem)]
  exact state.note_false

/-- The kinds of nodes that collect something themselves. -/
def collectingKinds : List String :=
  ["import_statement", "export_statement", "call_expression"] ++ elementKinds

theorem recordedLiteral?_of_not_mem (h : node.kind ∉ collectingKinds) :
    recordedLiteral? context node = none := by
  unfold recordedLiteral?
  split
  · next hkind => exact absurd (hkind ▸ by decide) h
  · next hkind => exact absurd (hkind ▸ by decide) h
  · next hkind => exact absurd (hkind ▸ by decide) h
  · rfl

/-- Other nodes collect nothing themselves. -/
theorem State.enter_of_not_mem (h : node.kind ∉ collectingKinds) (state : State) :
    state.enter context node = state := by
  have hnote : node.kind ∉ "import_statement" :: elementKinds := by
    intro hmem
    rcases List.mem_cons.mp hmem with hkind | hmem
    · exact h (hkind ▸ by decide)
    · exact h (List.mem_append_right _ hmem)
  unfold State.enter recordedSpecifier?
  rw [recordedLiteral?_of_not_mem h]
  exact State.note_of_kind context rfl hnote state

end Enter

/-! ## §2. The rule for a node -/

/-- What the node collects comes first, and then its parts are emitted, whose codes stand in its own, and
so does the placeholder of a literal that is recorded. -/
structure Opened (context : Context) (node : Node) (before : State) (code : Code) (after : State) : Prop where
  chain : ∃ codes, Chain context (before.enter context node) (emittedParts context node) codes after ∧
    StandIn codes [code]
  site : ∀ literal, recordedLiteral? context node = some literal → [.site before.sites.length] <:+: code

/-- Every run of the step is one of the node. -/
def Opens (context : Context) (node : Node) (step : Emit Code) : Prop :=
  ∀ before code after, step.run before = .ok (code, after) → Opened context node before code after

section Opens

variable {context : Context} {node : Node} {step : Emit Code}

theorem opens_reject {other : Node} {cause : Cause} : Opens context node (reject context other cause) := by
  intro before code after hrun
  cases hrun

/-- A node that collects nothing itself. -/
theorem opens_of_passes {parts : List Node} (hparts : emittedParts context node = parts)
    (hkind : node.kind ∉ collectingKinds) (h : Passes context [] parts (fun code => [code]) step) :
    Opens context node step := by
  intro before code after hrun
  refine ⟨?_, fun literal hliteral => ?_⟩
  · rw [State.enter_of_not_mem hkind, hparts]
    exact h before code after hrun
  · rw [recordedLiteral?_of_not_mem hkind] at hliteral
    cases hliteral

/-- A node that records a literal, and emits its parts then. -/
theorem opened_of_record {literal : Node} {before after : State} {code : Code} {next : Code → Emit Code}
    (hliteral : recordedLiteral? context node = some literal)
    (hpasses : ∀ number, Passes context [] (emittedParts context node) (fun code => [code])
      (next [.site number]))
    (hshows : ∀ number, Shows [.site number] (next [.site number]))
    (hrun : (recordImport (specifierOf context.source literal) >>= next).run
      (before.note (isElement node) (importsReact context node)) = .ok (code, after)) :
    Opened context node before code after := by
  rw [StateT.run_bind, run_recordImport] at hrun
  refine ⟨?_, fun _ _ => hshows _ _ _ _ hrun⟩
  have henter : before.enter context node = (before.note (isElement node) (importsReact context node)).record
      (specifierOf context.source literal) := by
    unfold State.enter recordedSpecifier?
    rw [hliteral]
    rfl
  rw [henter]
  exact hpasses _ _ _ _ hrun

/-- A node that records no literal. -/
theorem opened_of_unrecorded {before after : State} {code : Code}
    (hliteral : recordedLiteral? context node = none)
    (hpasses : Passes context [] (emittedParts context node) (fun code => [code]) step)
    (hrun : step.run (before.note (isElement node) (importsReact context node)) = .ok (code, after)) :
    Opened context node before code after := by
  have henter : before.enter context node = before.note (isElement node) (importsReact context node) := by
    unfold State.enter recordedSpecifier?
    rw [hliteral]
    rfl
  refine ⟨?_, fun literal hsome => ?_⟩
  · rw [henter]
    exact hpasses _ _ _ hrun
  · rw [hliteral] at hsome
    cases hsome

/-- A node that vanishes. -/
theorem opened_of_nothing {before after : State} {code : Code}
    (hliteral : recordedLiteral? context node = none) (hparts : emittedParts context node = [])
    (hrun : (pure [] : Emit Code).run (before.note (isElement node) (importsReact context node))
      = .ok (code, after)) : Opened context node before code after := by
  have hpasses : Passes context [] (emittedParts context node) (fun code => [code]) (pure []) := by
    rw [hparts]
    exact passes_pure standIn_nil
  exact opened_of_unrecorded hliteral hpasses hrun

end Opens

/-! ## §3. Imports and exports -/

section Statements

variable {context : Context} {node : Node} {drafts : List Draft} {places : List Place}

/-- Without the clause that is a text. -/
theorem fills_replaceClause {kind text : String} (h : List.Forall₂ (Fills context) drafts places) :
    List.Forall₂ (Fills context) (replaceClause kind text drafts)
      (Place.exchangeFirst (fun child => child.isNamed && child.kind == kind) (fun _ => []) places) :=
  fills_replaceFirst h (fun _ => rfl) fun _ _ => passes_pure standIn_nil

/-- The literal of the source is a placeholder, and the other drafts are emitted. -/
theorem passes_replaceSource (literal : Code) (h : List.Forall₂ (Fills context) drafts places) :
    Passes context [] (Place.partsOf (Place.exchangeFirst (·.field? == some "source") (fun _ => []) places))
      (fun code => [code]) (Draft.assemble context node (replaceSource literal drafts)) :=
  passes_assemble (fills_replaceFirst h (fun _ => rfl) fun _ _ => passes_pure standIn_nil)

theorem shows_replaceSource {literal : Code} {source : Node}
    (hnodes : drafts.map Draft.node = node.children) (hsource : node.childByField? "source" = some source) :
    Shows literal (Draft.assemble context node (replaceSource literal drafts)) := by
  obtain ⟨found, hfound, -⟩ := Draft.exists_find?_of_childByField? hnodes hsource
  exact shows_assemble (mem_replaceFirst hfound) shows_pure

/-- No place is exchanged where there is no such clause. -/
theorem exchangeFirst_clause {kind : String}
    (h : node.namedChildren.find? (fun child => child.kind == kind) = none) :
    Place.exchangeFirst (fun child => child.isNamed && child.kind == kind) (fun _ => [])
      (node.children.map Place.ofNode) = node.children.map Place.ofNode := by
  refine Place.exchangeFirst_of_forall (List.forall_mem_map.mpr fun child hchild => ?_)
  show (child.isNamed && child.kind == kind) = false
  cases hnamed : child.isNamed with
  | false => rfl
  | true =>
    rw [Bool.true_and, Bool.eq_false_iff]
    exact List.find?_eq_none.mp h child (List.mem_filter.mpr ⟨hchild, hnamed⟩)

theorem exchangeFirst_source {places : List Place} (hnodes : places.map Place.node = node.children)
    (h : node.childByField? "source" = none) :
    Place.exchangeFirst (·.field? == some "source") (fun _ => []) places = places := by
  refine Place.exchangeFirst_of_forall fun place hplace => ?_
  have hchild : place.node ∈ node.children := hnodes ▸ List.mem_map_of_mem hplace
  exact (Bool.not_eq_true _).mp (List.find?_eq_none.mp h place.node hchild)

/-- The rule for an import, case by case. -/
theorem importStatement_eq (children : List Draft) :
    importStatement context node children =
      if node.hasToken "type" then pure []
      else if node.namedChildren.any (·.kind == "import_require_clause") then
        reject context node .requireImport
      else match node.namedChildren.find? (·.kind == "import_clause") with
        | none => keptImport context node children
        | some clause => noteReact context clause >>= fun _ =>
          match clauseText? context clause with
          | none => pure []
          | some text => keptImport context node (replaceClause "import_clause" text children) := by
  unfold importStatement
  dsimp only
  split
  · rfl
  · split <;> rfl

/-- The rule for an export, case by case. -/
theorem exportStatement_eq (children : List Draft) :
    exportStatement context node children =
      if exportsTypes node then pure []
      else if node.hasToken "=" then reject context node .exportAssignment
      else match node.namedChildren.find? (·.kind == "export_clause") with
        | none => keptExport context node children
        | some clause =>
          match exportClauseText? context clause with
          | none => pure []
          | some text => keptExport context node (replaceClause "export_clause" text children) := by
  unfold exportStatement
  dsimp only
  split
  · rfl
  · split <;> rfl

theorem emittedParts_of_construct {kind : String} (hkind : node.kind = kind)
    (hplain : kind ∉ removedKinds ++ wrapperKinds ++ ["readonly"]) :
    emittedParts context node = constructParts context node := by
  simp only [List.mem_append, List.mem_singleton, not_or] at hplain
  obtain ⟨⟨hremoved, hwraps⟩, hreadonly⟩ := hplain
  unfold emittedParts Node.isToken
  rw [hkind, if_neg (fun h => hremoved (List.contains_iff_mem.mp h)),
    if_neg (fun h => hwraps (List.contains_iff_mem.mp h)), if_neg (by simp [hreadonly])]

/-- What is noted when an import is emitted. -/
theorem run_noteReact_bind {clause : Node} {next : PUnit → Emit Code} (before : State) :
    (noteReact context clause >>= next).run before
      = (next ⟨⟩).run (before.note false (clause.namedChildren.any (partBindsReact context))) := by
  unfold noteReact State.note
  rw [Bool.or_false]
  rfl

theorem State.note_importStatement (context : Context) (hkind : node.kind = "import_statement") (state : State) :
    state.note (isElement node) (importsReact context node)
      = state.note false (!node.hasToken "type"
        && (node.namedChildren.find? (·.kind == "import_clause")).any
          (·.namedChildren.any (partBindsReact context))) := by
  unfold isElement importsReact
  rw [hkind, beq_self_eq_true, Bool.true_and]
  rfl

/-- An import of types alone. -/
theorem opened_of_droppedImport {before after : State} {code : Code} (hkind : node.kind = "import_statement")
    (htypes : importsTypes context node = true)
    (hrun : (pure [] : Emit Code).run (before.note (isElement node) (importsReact context node))
      = .ok (code, after)) : Opened context node before code after := by
  refine opened_of_nothing ?_ ?_ hrun
  · rw [recordedLiteral?, hkind]
    exact if_pos htypes
  · rw [emittedParts_of_construct hkind (by decide), constructParts, hkind]
    exact if_pos htypes

/-- An import whose clause, if it has one, has been replaced. -/
theorem opened_of_keptImport {before after : State} {code : Code} (hkind : node.kind = "import_statement")
    (htypes : importsTypes context node = false)
    (hparts : statementParts "import_clause" node
      = Place.partsOf (Place.exchangeFirst (·.field? == some "source") (fun _ => []) places))
    (hfills : List.Forall₂ (Fills context) drafts places) (hnodes : drafts.map Draft.node = node.children)
    (hrun : (keptImport context node drafts).run
      (before.note (isElement node) (importsReact context node)) = .ok (code, after)) :
    Opened context node before code after := by
  have hkept : ¬ importsTypes context node = true := by rw [htypes]; exact Bool.false_ne_true
  have hemitted : emittedParts context node = statementParts "import_clause" node := by
    rw [emittedParts_of_construct hkind (by decide), constructParts, hkind]
    exact if_neg hkept
  have hliteral : recordedLiteral? context node = node.childByField? "source" := by
    rw [recordedLiteral?, hkind]
    exact if_neg hkept
  unfold keptImport at hrun
  rw [StateT.run_bind] at hrun
  obtain ⟨⟨source, between⟩, hsource, hrun⟩ := Result.bind_eq_ok_iff.mp hrun
  obtain ⟨rfl, hfound⟩ := still_demand _ _ _ hsource
  refine opened_of_record (hliteral.trans hfound) (fun number => ?_) (fun number => ?_) hrun
  · rw [hemitted, hparts]
    exact passes_replaceSource _ hfills
  · exact shows_replaceSource hnodes hfound

theorem opens_importStatement (hkind : node.kind = "import_statement") :
    Opens context node (importStatement context node (node.children.map (draft context))) := by
  have hfills := fills_map_draft context node.children
  have hnodes := map_node_draft context node.children
  intro before code after hrun
  have hnote := State.note_importStatement context hkind before
  rw [importStatement_eq] at hrun
  cases htype : node.hasToken "type" with
  | true =>
    rw [htype, Bool.not_true, Bool.false_and, State.note_false] at hnote
    rw [htype, if_pos rfl, ← hnote] at hrun
    exact opened_of_droppedImport hkind (by rw [importsTypes, htype, Bool.true_or]) hrun
  | false =>
    rw [htype, Bool.not_false, Bool.true_and] at hnote
    rw [htype, if_neg Bool.false_ne_true] at hrun
    split at hrun
    · cases hrun
    · cases hclause : node.namedChildren.find? (·.kind == "import_clause") with
      | none =>
        rw [hclause, Option.any_none, State.note_false] at hnote
        rw [hclause, ← hnote] at hrun
        refine opened_of_keptImport hkind ?_ ?_ hfills hnodes hrun
        · rw [importsTypes, htype, hclause]
          rfl
        · rw [statementParts, exchangeFirst_clause hclause]
      | some clause =>
        rw [hclause, Option.any_some] at hnote
        rw [hclause] at hrun
        dsimp only at hrun
        rw [run_noteReact_bind, ← hnote] at hrun
        have htypes : importsTypes context node = (clauseText? context clause).isNone := by
          rw [importsTypes, htype, hclause, Option.any_some, Bool.false_or, Option.beq_none]
        cases htext : clauseText? context clause with
        | none =>
          rw [htext] at hrun htypes
          exact opened_of_droppedImport hkind htypes hrun
        | some text =>
          rw [htext] at hrun htypes
          exact opened_of_keptImport hkind htypes rfl (fills_replaceClause hfills)
            ((Draft.map_node_replaceFirst _ _ _).trans hnodes) hrun

theorem map_node_exchangeFirst (q : Node → Bool) (parts : Node → List Node) (places : List Place) :
    (Place.exchangeFirst q parts places).map Place.node = places.map Place.node := by
  induction places with
  | nil => rfl
  | cons place places ih =>
    unfold Place.exchangeFirst
    split
    · rfl
    · rw [List.map_cons, List.map_cons, ih]

theorem map_node_ofNode (nodes : List Node) : (nodes.map Place.ofNode).map Place.node = nodes := by
  rw [List.map_map]
  exact List.map_id _

/-- An export of types alone. -/
theorem opens_of_droppedExport (hkind : node.kind = "export_statement")
    (hnothing : exportsNothing context node = true) : Opens context node (pure []) := by
  intro before code after hrun
  rw [← State.note_of_kind context hkind (by decide) before] at hrun
  refine opened_of_nothing ?_ ?_ hrun
  · rw [recordedLiteral?, hkind]
    exact if_pos hnothing
  · rw [emittedParts_of_construct hkind (by decide), constructParts, hkind]
    exact if_pos hnothing

/-- An export whose clause, if it has one, has been replaced. -/
theorem opens_of_keptExport (hkind : node.kind = "export_statement")
    (hsome : exportsNothing context node = false)
    (hparts : statementParts "export_clause" node
      = Place.partsOf (Place.exchangeFirst (·.field? == some "source") (fun _ => []) places))
    (hfills : List.Forall₂ (Fills context) drafts places) (hnodes : drafts.map Draft.node = node.children)
    (hplaces : places.map Place.node = node.children) :
    Opens context node (keptExport context node drafts) := by
  have hkept : ¬ exportsNothing context node = true := by rw [hsome]; exact Bool.false_ne_true
  have hemitted : emittedParts context node = statementParts "export_clause" node := by
    rw [emittedParts_of_construct hkind (by decide), constructParts, hkind]
    exact if_neg hkept
  have hliteral : recordedLiteral? context node = node.childByField? "source" := by
    rw [recordedLiteral?, hkind]
    exact if_neg hkept
  intro before code after hrun
  rw [← State.note_of_kind context hkind (by decide) before] at hrun
  unfold keptExport at hrun
  cases hsource : node.childByField? "source" with
  | none =>
    rw [hsource] at hrun hliteral
    refine opened_of_unrecorded hliteral ?_ hrun
    rw [hemitted, hparts, exchangeFirst_source hplaces hsource]
    exact passes_assemble hfills
  | some source =>
    rw [hsource] at hrun hliteral
    refine opened_of_record hliteral (fun number => ?_) (fun number => ?_) hrun
    · rw [hemitted, hparts]
      exact passes_replaceSource _ hfills
    · exact shows_replaceSource hnodes hsource

theorem opens_exportStatement (hkind : node.kind = "export_statement") :
    Opens context node (exportStatement context node (node.children.map (draft context))) := by
  have hfills := fills_map_draft context node.children
  have hnodes := map_node_draft context node.children
  have hplaces := map_node_ofNode node.children
  rw [exportStatement_eq]
  cases htypes : exportsTypes node with
  | true =>
    rw [if_pos rfl]
    exact opens_of_droppedExport hkind (by rw [exportsNothing, htypes, Bool.true_or])
  | false =>
    rw [if_neg Bool.false_ne_true]
    split
    · exact opens_reject
    · cases hclause : node.namedChildren.find? (·.kind == "export_clause") with
      | none =>
        refine opens_of_keptExport hkind ?_ ?_ hfills hnodes hplaces
        · rw [exportsNothing, htypes, hclause]
          rfl
        · rw [statementParts, exchangeFirst_clause hclause]
      | some clause =>
        dsimp only
        have hnothing : exportsNothing context node = (exportClauseText? context clause).isNone := by
          rw [exportsNothing, htypes, hclause, Option.any_some, Bool.false_or, Option.beq_none]
        cases htext : exportClauseText? context clause with
        | none =>
          exact opens_of_droppedExport hkind (by rw [hnothing, htext]; rfl)
        | some text =>
          exact opens_of_keptExport hkind (by rw [hnothing, htext]; rfl) rfl (fills_replaceClause hfills)
            ((Draft.map_node_replaceFirst _ _ _).trans hnodes)
            ((map_node_exchangeFirst _ _ _).trans hplaces)

end Statements

/-! ## §4. Calls -/

section Calls

variable {context : Context} {node literal : Node}

/-- The step for the arguments of a call of `import`. -/
theorem passes_arguments (placeholder : Code) (arguments : Node) :
    Passes context [] (argumentParts arguments) (fun code => [code])
      (Draft.assemble context arguments (Draft.replaceFirst Draft.isNamed (fun _ => return placeholder)
        (arguments.children.map (draft context)))) :=
  passes_assemble (fills_replaceFirst (fills_map_draft context arguments.children) (fun _ => rfl)
    fun _ _ => passes_pure standIn_nil)

/-- The literal is the first construct among the arguments. -/
theorem importedLiteral?_eq_some (h : importedLiteral? node = some literal) :
    ∃ arguments, node.childByField? "arguments" = some arguments ∧
      arguments.children.find? (·.isNamed) = some literal := by
  unfold importedLiteral? at h
  obtain ⟨function, -, h⟩ := Option.bind_eq_some_iff.mp h
  obtain ⟨arguments, harguments, h⟩ := Option.bind_eq_some_iff.mp h
  obtain ⟨first, hfirst, h⟩ := Option.bind_eq_some_iff.mp h
  split at h
  · cases h
    refine ⟨arguments, harguments, ?_⟩
    unfold Node.namedChildren at hfirst
    rwa [List.head?_filter] at hfirst
  · cases h

theorem find?_map_draft (context : Context) {p : Draft → Bool} {q : Node → Bool} (hpq : ∀ draft, p draft = q draft.node)
    {nodes : List Node} {found : Node} (h : nodes.find? q = some found) :
    (nodes.map (draft context)).find? p = some (draft context found) := by
  have hcomp : p ∘ draft context = q := by
    funext node
    rw [Function.comp_apply, hpq, node_draft]
  rw [List.find?_map, hcomp, h]
  rfl

theorem opens_callExpression (hkind : node.kind = "call_expression") :
    Opens context node (callExpression context node (node.children.map (draft context))) := by
  have hparts : emittedParts context node = callParts node := by
    rw [emittedParts_of_construct hkind (by decide), constructParts, hkind]
    rfl
  have hliteral : recordedLiteral? context node = importedLiteral? node := by
    rw [recordedLiteral?, hkind]
    rfl
  have hplain (before : State) := State.note_of_kind context hkind (by decide) before
  intro before code after hrun
  unfold callExpression at hrun
  unfold callParts at hparts
  cases hfirst : importedLiteral? node with
  | none =>
    rw [hfirst] at hrun hliteral hparts
    refine opened_of_unrecorded hliteral ?_ ((hplain before).symm ▸ hrun)
    rw [hparts]
    exact passes_assemble_children node
  | some first =>
    rw [hfirst] at hrun hliteral hparts
    dsimp only at hrun hparts
    refine opened_of_record hliteral (fun number => ?_) (fun number => ?_) ((hplain before).symm ▸ hrun)
    · rw [hparts]
      refine passes_assemble (fills_replaceFirst (fills_map_draft context node.children) (fun _ => rfl) ?_)
      refine forall_drafts fun arguments _ => ?_
      rw [node_draft, children_draft]
      exact passes_arguments _ arguments
    · -- the placeholder stands in the arguments, and these stand in the call
      obtain ⟨arguments, harguments, hfound⟩ := importedLiteral?_eq_some hfirst
      have hdraft := find?_map_draft context (p := Draft.hasField "arguments") (fun _ => rfl)
        harguments
      refine shows_assemble (mem_replaceFirst hdraft) ?_
      have hinner := find?_map_draft context (p := Draft.isNamed) (fun _ => rfl) hfound
      rw [← children_draft] at hinner
      exact shows_assemble (mem_replaceFirst hinner) shows_pure

end Calls

end LivePreview.Lowering
