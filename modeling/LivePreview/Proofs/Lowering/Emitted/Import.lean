/-
  LivePreview.Proofs.Lowering.Emitted.Import
  ──────────────────────────────────────────
  **Which imports vanish, and what is left of the others.**

  An import or an export from a source that is kept loses the names in its braces that are
  marked as types, and its specifier is an import of the module:

      source   import A, { type B, c } from "x";       export { type D, e } from "y";
      code     import A, { c } from "x";               export { e } from "y";

  A statement that is marked as a whole vanishes, and so does one that binds nothing but types
  (`StatesTypes`).  With nothing in its braces an export stays, so that its source is loaded,
  but an import vanishes all the same (`lower_statement_from`).
-/
import LivePreview.Proofs.Lowering.Emitted.Tree
import LivePreview.Proofs.Lowering.Sites.Imports

namespace LivePreview.Lowering

open LivePreview.Syntax (Node)

variable {context : Context} {node clause literal : Node}

/-! ## §1. Clauses -/

/-- The names that an import clause binds outside of braces; an export clause binds none. -/
def outerNames (clause : Node) : List Node :=
  if clause.kind == "import_clause" then
    clause.namedChildren.filter fun part => part.kind == "identifier" || part.kind == "namespace_import"
  else []

/-- The braces of a clause: an import clause may have them, and an export clause is in braces itself. -/
def bracesOf (clause : Node) : List Node :=
  if clause.kind == "import_clause" then clause.namedChildren.filter (·.kind == "named_imports") else [clause]

/-- The specifiers in the braces of a clause. -/
def bracedSpecifiers (clause : Node) : List Node :=
  let kind := if clause.kind == "import_clause" then "import_specifier" else "export_specifier"
  (bracesOf clause).flatMap fun braces => braces.namedChildren.filter (·.kind == kind)

/-- The specifiers that are not marked as types. -/
def keptSpecifiers (clause : Node) : List Node :=
  (bracedSpecifiers clause).filter (!isTypeOnly ·)

/-- A clause of the grammar: the names of an import come first, and then at most one pair of braces. -/
structure IsClause (clause : Node) : Prop where
  parts : clause.kind = "import_clause" →
    clause.namedChildren.filter (·.kind != "comment") = outerNames clause ++ bracesOf clause
  braces : (bracesOf clause).length ≤ 1
  binds : outerNames clause ++ bracesOf clause ≠ []

/-- The clause binds types, and nothing else. -/
structure BindsTypes (clause : Node) : Prop where
  outer : outerNames clause = []
  braced : bracedSpecifiers clause ≠ []
  types : ∀ specifier ∈ bracedSpecifiers clause, isTypeOnly specifier = true

/-- The clause binds nothing at all. -/
structure BindsNothing (clause : Node) : Prop where
  outer : outerNames clause = []
  braced : bracedSpecifiers clause = []

/-- The names that are left of a clause, with those in braces behind the others. -/
def leftNames (context : Context) (clause : Node) : List String :=
  (outerNames clause).map context.text
    ++ if (keptSpecifiers clause).isEmpty then [] else [braced ((keptSpecifiers clause).map context.text)]

/-- What is left of a clause.  One with nothing in its braces is copied. -/
def leftOf (context : Context) (clause : Node) : String :=
  if (leftNames context clause).isEmpty then context.text clause
  else ", ".intercalate (leftNames context clause)

/-- Nothing is left of a clause exactly if there are no names outside of its braces, and only types in them. -/
theorem leftNames_eq_nil_iff : leftNames context clause = [] ↔
    outerNames clause = [] ∧ ∀ specifier ∈ bracedSpecifiers clause, isTypeOnly specifier = true := by
  have hkept : keptSpecifiers clause = [] ↔
      ∀ specifier ∈ bracedSpecifiers clause, isTypeOnly specifier = true := by
    unfold keptSpecifiers
    rw [List.filter_eq_nil_iff]
    simp
  unfold leftNames
  rw [List.append_eq_nil_iff, List.map_eq_nil_iff, ← hkept]
  refine and_congr_right fun _ => ?_
  cases keptSpecifiers clause <;> simp

theorem bindsTypes_iff (context : Context) : BindsTypes clause ↔ leftNames context clause = [] ∧ bracedSpecifiers clause ≠ [] := by
  rw [leftNames_eq_nil_iff]
  exact ⟨fun ⟨houter, hbraced, htypes⟩ => ⟨⟨houter, htypes⟩, hbraced⟩,
    fun ⟨⟨houter, htypes⟩, hbraced⟩ => ⟨houter, hbraced, htypes⟩⟩

theorem bindsNothing_iff (context : Context) :
    BindsNothing clause ↔ leftNames context clause = [] ∧ bracedSpecifiers clause = [] := by
  rw [leftNames_eq_nil_iff]
  exact ⟨fun ⟨houter, hbraced⟩ => ⟨⟨houter, hbraced ▸ nofun⟩, hbraced⟩,
    fun ⟨⟨houter, _⟩, hbraced⟩ => ⟨houter, hbraced⟩⟩

/-! ## §2. The texts of clauses -/

theorem bracesOf_importClause (hkind : clause.kind = "import_clause") :
    bracesOf clause = clause.namedChildren.filter (·.kind == "named_imports") := by
  unfold bracesOf
  rw [hkind]
  rfl

/-- Comments in a clause keep nothing. -/
theorem flatMap_clauseParts_filter (parts : List Node) :
    (parts.filter (·.kind != "comment")).flatMap (clauseParts context)
      = parts.flatMap (clauseParts context) := by
  induction parts with
  | nil => rfl
  | cons part parts ih =>
    rw [List.flatMap_cons, ← ih]
    by_cases hcomment : part.kind = "comment"
    · have hnone : clauseParts context part = [] := by
        unfold clauseParts
        rw [hcomment]
        rfl
      rw [List.filter_cons_of_neg (by simp [hcomment]), hnone, List.nil_append]
    · rw [List.filter_cons_of_pos (by simp [hcomment]), List.flatMap_cons]

theorem clauseParts_name {part : Node} (h : part ∈ outerNames clause) :
    clauseParts context part = [context.text part] := by
  unfold outerNames at h
  split at h
  · exact if_pos (List.mem_filter.mp h).2
  · cases h

/-- The braces keep one text, unless nothing is left in them. -/
theorem clauseParts_braces {braces : Node} (hkind : clause.kind = "import_clause")
    (h : bracesOf clause = [braces]) :
    clauseParts context braces
      = if (keptSpecifiers clause).isEmpty then [] else [braced ((keptSpecifiers clause).map context.text)] := by
  have hbraces : braces.kind = "named_imports" := by
    have hmem : braces ∈ bracesOf clause := h ▸ List.mem_singleton_self braces
    rw [bracesOf_importClause hkind] at hmem
    exact eq_of_beq (List.mem_filter.mp hmem).2
  have hkept : keptImports braces = keptSpecifiers clause := by
    unfold keptSpecifiers bracedSpecifiers keptImports
    rw [hkind, h, List.flatMap_singleton, List.filter_filter]
    exact List.filter_congr fun specifier _ => Bool.and_comm _ _
  unfold clauseParts
  rw [hbraces, hkept]
  cases keptSpecifiers clause <;> rfl

/-- The texts that the parts of an import clause keep. -/
theorem flatMap_clauseParts_eq (context : Context) (h : IsClause clause) (hkind : clause.kind = "import_clause") :
    clause.namedChildren.flatMap (clauseParts context) = leftNames context clause := by
  have hnames : (outerNames clause).flatMap (clauseParts context) = (outerNames clause).map context.text := by
    rw [List.flatMap_congr fun part hpart => clauseParts_name hpart, List.map_eq_flatMap]
  rw [← flatMap_clauseParts_filter, h.parts hkind, List.flatMap_append, hnames, leftNames]
  congr 1
  match hbraces : bracesOf clause, h.braces with
  | [], _ =>
    have hkept : keptSpecifiers clause = [] := by
      unfold keptSpecifiers bracedSpecifiers
      rw [hbraces]
      rfl
    rw [hkept]
    rfl
  | [braces], _ => rw [List.flatMap_singleton, clauseParts_braces hkind hbraces]

/-- **What is left of an import clause**, if anything is. -/
theorem clauseText?_eq_ite (context : Context) (h : IsClause clause) (hkind : clause.kind = "import_clause") :
    clauseText? context clause
      = if (leftNames context clause).isEmpty then none else some (leftOf context clause) := by
  have hparts := flatMap_clauseParts_eq context h hkind
  unfold clauseText? leftOf
  rw [hparts]
  cases hleft : leftNames context clause with
  | nil =>
    -- without names there are braces
    have hbraces : bracesOf clause ≠ [] := by
      have hbinds := h.binds
      rwa [(leftNames_eq_nil_iff.mp hleft).1, List.nil_append] at hbinds
    rw [bracesOf_importClause hkind] at hbraces
    obtain ⟨braces, hmem⟩ := List.exists_mem_of_ne_nil _ hbraces
    exact if_pos (List.any_eq_true.mpr ⟨braces, List.mem_filter.mp hmem⟩)
  | cons text texts => rfl

/-- **What is left of an export clause**, if anything is, or if there has been nothing in it. -/
theorem exportClauseText?_eq_ite (context : Context) (hkind : clause.kind = "export_clause") :
    exportClauseText? context clause
      = if (leftNames context clause).isEmpty && !(bracedSpecifiers clause).isEmpty then none
        else some (leftOf context clause) := by
  have hspecifiers : bracedSpecifiers clause = clause.namedChildren.filter (·.kind == "export_specifier") := by
    unfold bracedSpecifiers bracesOf
    rw [hkind]
    exact List.flatMap_singleton _ _
  have houter : outerNames clause = [] := by
    unfold outerNames
    rw [hkind]
    rfl
  unfold exportClauseText? leftOf leftNames
  rw [← hspecifiers, houter]
  dsimp only
  rw [← keptSpecifiers]
  cases keptSpecifiers clause with
  | nil => cases bracedSpecifiers clause <;> rfl
  | cons specifier specifiers =>
    rw [List.map_nil, List.nil_append, List.isEmpty_cons, if_neg Bool.false_ne_true, String.intercalate_singleton]
    rfl

theorem clauseText?_eq_none_iff (h : IsClause clause) (hkind : clause.kind = "import_clause") :
    clauseText? context clause = none ↔ BindsTypes clause ∨ BindsNothing clause := by
  rw [clauseText?_eq_ite context h hkind, bindsTypes_iff context, bindsNothing_iff context,
    ← and_or_left]
  cases leftNames context clause <;> simp [em']

theorem exportClauseText?_eq_none_iff (hkind : clause.kind = "export_clause") :
    exportClauseText? context clause = none ↔ BindsTypes clause := by
  rw [exportClauseText?_eq_ite context hkind, bindsTypes_iff context]
  cases leftNames context clause <;> cases bracedSpecifiers clause <;> simp

/-! ## §3. Statements -/

/-- The kind of clause that a statement has. -/
def clauseKind (node : Node) : String :=
  if node.kind == "import_statement" then "import_clause" else "export_clause"

/-- The clause of an import or an export. -/
def statementClause? (node : Node) : Option Node :=
  node.namedChildren.find? (·.kind == clauseKind node)

/-- The statement is an import, or an export from a source. -/
structure IsFrom (node : Node) : Prop where
  kind : node.kind = "import_statement" ∨
    node.kind = "export_statement" ∧ (node.childByField? "source").isSome = true
  /-- An export from a source declares nothing itself. -/
  declares : node.kind = "export_statement" → node.childByField? "declaration" = none ∧
    node.namedChildren.any (·.kind == "interface_declaration") = false
  clause : ∀ clause, statementClause? node = some clause →
    IsClause clause ∧ clause ∈ childrenInFront "source" node

/-- The statement is marked as a whole, or binds nothing but types. -/
def StatesTypes (node : Node) : Prop :=
  node.hasToken "type" = true ∨ ∃ clause, statementClause? node = some clause ∧ BindsTypes clause

/-- The statement is an import with nothing in its braces. -/
def ImportsNothing (node : Node) : Prop :=
  node.kind = "import_statement" ∧ ∃ clause, statementClause? node = some clause ∧ BindsNothing clause

theorem kind_of_statementClause? (h : statementClause? node = some clause) : clause.kind = clauseKind node :=
  eq_of_beq (List.find?_some (p := fun child : Node => child.kind == clauseKind node) h)

/-- A clause of the statement with a property. -/
theorem any_statementClause? (node : Node) {q : Node → Bool} {P : Node → Prop}
    (h : ∀ clause, statementClause? node = some clause → (q clause = true ↔ P clause)) :
    (statementClause? node).any q = true ↔ ∃ clause, statementClause? node = some clause ∧ P clause := by
  cases hclause : statementClause? node with
  | none => exact iff_of_false Bool.false_ne_true fun ⟨_, hsome, _⟩ => nomatch hsome
  | some clause =>
    rw [Option.any_some, h clause hclause]
    exact ⟨fun hp => ⟨clause, rfl, hp⟩, fun ⟨_, hsome, hp⟩ => Option.some.inj hsome ▸ hp⟩

/-- **Which imports vanish.** -/
theorem IsFrom.importsTypes_iff (context : Context) (h : IsFrom node) (hkind : node.kind = "import_statement") :
    importsTypes context node = true ↔ StatesTypes node ∨ ImportsNothing node := by
  have hclauses : clauseKind node = "import_clause" := by
    unfold clauseKind
    rw [hkind]
    rfl
  have hany := any_statementClause? node (q := (clauseText? context · == none)) fun clause hclause =>
    beq_iff_eq.trans (clauseText?_eq_none_iff (h.clause clause hclause).1
      ((kind_of_statementClause? hclause).trans hclauses))
  unfold importsTypes StatesTypes ImportsNothing
  rw [← hclauses, Bool.or_eq_true, ← statementClause?, hany]
  simp only [and_or_left, exists_or, hkind, true_and, or_assoc]

/-- **Which exports vanish.** -/
theorem IsFrom.exportsNothing_iff (context : Context) (h : IsFrom node) (hkind : node.kind = "export_statement") :
    exportsNothing context node = true ↔ StatesTypes node := by
  have hclauses : clauseKind node = "export_clause" := by
    unfold clauseKind
    rw [hkind]
    rfl
  have hany := any_statementClause? node (q := (exportClauseText? context · == none))
    fun clause hclause => beq_iff_eq.trans (exportClauseText?_eq_none_iff
      ((kind_of_statementClause? hclause).trans hclauses))
  obtain ⟨hdeclaration, hinterface⟩ := h.declares hkind
  unfold exportsNothing exportsTypes StatesTypes
  rw [hdeclaration, hinterface, Option.any_none, Bool.or_false, Bool.or_false, ← hclauses, Bool.or_eq_true,
    ← statementClause?, hany]

theorem IsFrom.leavesNothing_iff (context : Context) (h : IsFrom node) :
    leavesNothing context node = true ↔ StatesTypes node ∨ ImportsNothing node := by
  unfold leavesNothing Node.isToken
  rcases h.kind with hkind | ⟨hkind, -⟩
  · rw [← h.importsTypes_iff context hkind, hkind]
    simp [removedKinds]
  · have hnever : ¬ ImportsNothing node := fun ⟨himport, _⟩ => absurd (hkind.symm.trans himport) (by decide)
    rw [or_iff_left hnever, ← h.exportsNothing_iff context hkind, hkind]
    simp [removedKinds]

/-- A statement that does not vanish records its source. -/
theorem IsFrom.recordedLiteral?_eq_ite (context : Context) (h : IsFrom node) :
    recordedLiteral? context node
      = if leavesNothing context node then none else node.childByField? "source" := by
  unfold recordedLiteral? leavesNothing Node.isToken
  rcases h.kind with hkind | ⟨hkind, -⟩
  · rw [hkind]
    simp [removedKinds]
  · rw [hkind]
    simp [removedKinds]

/-! ## §4. What is left of a statement -/

/-- The step emits what stands in front of the source, with what is left of the clause in its place. -/
inductive EmitsFront (context : Context) (node literal : Node) (front : List Node) : Emit Code → Prop where
  | bare (h : statementClause? node = none) :
    EmitsFront context node literal front (emitStretch context node.start literal.start front)
  | clause {before between : List Node} {clause : Node} (h : statementClause? node = some clause)
    (hfront : front = before ++ clause :: between) :
    EmitsFront context node literal front (do
      let opening ← emitStretch context node.start clause.start before
      let closing ← emitStretch context clause.stop literal.start between
      return opening ++ Code.ofText (leftOf context clause) ++ closing)

/-- The statement records its source, and is emitted with what is left of its clause. -/
def KeepsRest (context : Context) (node literal : Node) : Prop :=
  ∃ front behind opening, node.children = front ++ literal :: behind ∧
    EmitsFront context node literal front opening ∧
    ∀ before, (emit context node).run before = (do
      let placeholder ← recordImport (specifierOf context.source literal)
      let head ← opening
      let tail ← emitStretch context literal.stop node.stop behind
      return head ++ placeholder ++ tail : Emit Code).run (before.note false (importsReact context node))

/-- The drafts of a statement, with what is left of its clause. -/
def restDrafts (context : Context) (node : Node) : List Draft :=
  match statementClause? node with
  | none => node.children.map (draft context)
  | some clause => replaceClause (clauseKind node) (leftOf context clause) (node.children.map (draft context))

/-- The child is a clause of the statement. -/
def isClauseOf (node child : Node) : Bool :=
  child.isNamed && child.kind == clauseKind node

theorem find?_isClauseOf (node : Node) : node.children.find? (isClauseOf node) = statementClause? node := by
  have htest : isClauseOf node
      = fun child => decide (child.isNamed = true ∧ (child.kind == clauseKind node) = true) := by
    funext child
    rw [isClauseOf, Bool.decide_and, Bool.decide_eq_true, Bool.decide_eq_true]
  rw [statementClause?, Node.namedChildren, List.find?_filter, htest]

/-- The clause is the first one in front of the source, which is the first child in its role. -/
theorem IsFrom.exists_front (h : IsFrom node) (hsource : node.childByField? "source" = some literal) :
    ∃ front behind, node.children = front ++ literal :: behind ∧ literal.field? = some "source" ∧
      (∀ child ∈ front, (child.field? == some "source") = false) ∧
      ∀ clause, statementClause? node = some clause → ∃ before between, front = before ++ clause :: between ∧
        isClauseOf node clause = true ∧ ∀ child ∈ before, isClauseOf node child = false := by
  obtain ⟨hfield, front, behind, hchildren, hfront⟩ := List.find?_eq_some_iff_append.mp hsource
  refine ⟨front, behind, hchildren, eq_of_beq hfield,
    fun child hchild => (Bool.not_eq_true' _).mp (hfront child hchild), fun clause hclause => ?_⟩
  have htake : childrenInFront "source" node = front := by
    unfold childrenInFront
    rw [hchildren, List.takeWhile_append_of_pos hfront, List.takeWhile_cons_of_neg (by simp [hfield]),
      List.append_nil]
  have hmem : clause ∈ front := htake ▸ (h.clause clause hclause).2
  -- the first clause of all stands there as well
  have hfirst := (find?_isClauseOf node).trans hclause
  have htest : isClauseOf node clause = true := List.find?_some hfirst
  obtain ⟨first, hfound⟩ := Option.isSome_iff_exists.mp (List.find?_isSome.mpr ⟨clause, hmem, htest⟩)
  rw [hchildren, List.find?_append, hfound, Option.some_or] at hfirst
  rw [hfirst] at hfound
  obtain ⟨-, before, between, hsplit, hbefore⟩ := List.find?_eq_some_iff_append.mp hfound
  exact ⟨before, between, hsplit, htest, fun child hchild => (Bool.not_eq_true' _).mp (hbefore child hchild)⟩

/-- Assembled with a placeholder in place of the source, the drafts are a stretch in front of it and one
behind it. -/
theorem assemble_replaceSource {front : List Draft} {behind : List Node} (placeholder : Code)
    (hfield : literal.field? = some "source") (hfront : ∀ draft ∈ front, Draft.hasField "source" draft = false) :
    Draft.assemble context node (replaceSource placeholder (front ++ draft context literal :: behind.map (draft context)))
      = do
        let head ← Draft.assembleFrom context.source literal.start node.start front
        let tail ← emitStretch context literal.stop node.stop behind
        return head ++ placeholder ++ tail := by
  have hsource : Draft.hasField "source" (draft context literal) = true := by
    rw [hasField_draft, hfield]
    exact beq_self_eq_true _
  unfold replaceSource Draft.assemble
  rw [replaceFirst_append hfront hsource, if_neg (by simp), assembleFrom_append]
  simp only [Draft.withEmission, node_draft, pure_bind]
  rfl

/-- **The drafts of a statement, assembled.** -/
theorem IsFrom.assemble_restDrafts (context : Context) (h : IsFrom node) (hsource : node.childByField? "source" = some literal) :
    ∃ front behind opening, node.children = front ++ literal :: behind ∧
      EmitsFront context node literal front opening ∧
      ∀ placeholder, Draft.assemble context node (replaceSource placeholder (restDrafts context node)) = do
        let head ← opening
        let tail ← emitStretch context literal.stop node.stop behind
        return head ++ placeholder ++ tail := by
  obtain ⟨front, behind, hchildren, hfield, hfront, hclauses⟩ := h.exists_front hsource
  cases hclause : statementClause? node with
  | none =>
    refine ⟨front, behind, _, hchildren, .bare hclause, fun placeholder => ?_⟩
    unfold restDrafts
    rw [hclause, hchildren, List.map_append, List.map_cons]
    exact assemble_replaceSource placeholder hfield (forall_map_draft (hasField_draft "source") hfront)
  | some clause =>
    obtain ⟨before, between, rfl, htest, hbefore⟩ := hclauses clause hclause
    refine ⟨_, behind, _, hchildren, .clause hclause rfl, fun placeholder => ?_⟩
    have hdrafts : restDrafts context node = (before.map (draft context)
        ++ (draft context clause).withEmission (return Code.ofText (leftOf context clause))
          :: between.map (draft context)) ++ draft context literal :: behind.map (draft context) := by
      have hdraft (child : Node) : ((draft context child).isNamed && (draft context child).kind == clauseKind node)
          = isClauseOf node child := by
        rw [isNamed_draft, kind_draft, isClauseOf]
      unfold restDrafts replaceClause
      rw [hclause, hchildren]
      simp only [List.map_append, List.map_cons, List.append_assoc, List.cons_append]
      exact replaceFirst_append (forall_map_draft hdraft hbefore) ((hdraft clause).trans htest)
    have hsources : ∀ child ∈ before.map (draft context)
        ++ (draft context clause).withEmission (return Code.ofText (leftOf context clause))
          :: between.map (draft context), Draft.hasField "source" child = false := by
      obtain ⟨hbefore, hrest⟩ := List.forall_mem_append.mp hfront
      obtain ⟨hclause, hbetween⟩ := List.forall_mem_cons.mp hrest
      refine List.forall_mem_append.mpr ⟨forall_map_draft (hasField_draft "source") hbefore, ?_⟩
      exact List.forall_mem_cons.mpr ⟨(hasField_draft "source" clause).trans hclause,
        forall_map_draft (hasField_draft "source") hbetween⟩
    rw [hdrafts, assemble_replaceSource placeholder hfield hsources, assembleFrom_append]
    simp only [Draft.withEmission, node_draft, pure_bind, bind_assoc]
    rfl

/-- The rule for an import that does not vanish. -/
theorem IsFrom.run_emit_import (h : IsFrom node) (hkind : node.kind = "import_statement")
    (hleaves : leavesNothing context node = false) {before after : State} {code : Code}
    (hrun : (emit context node).run before = .ok (code, after)) (state : State) :
    (emit context node).run state
      = (keptImport context node (restDrafts context node)).run
        (state.note false (importsReact context node)) := by
  have hclauseKind : clauseKind node = "import_clause" := by
    unfold clauseKind
    rw [hkind]
    rfl
  have htypes : importsTypes context node = false := by
    rw [← Bool.not_eq_true, h.importsTypes_iff context hkind, ← h.leavesNothing_iff context, hleaves]
    exact Bool.false_ne_true
  rw [importsTypes, Bool.or_eq_false_iff, ← hclauseKind, ← statementClause?] at htypes
  obtain ⟨htype, htexts⟩ := htypes
  have hrule : emit context node = importStatement context node (node.children.map (draft context)) := by
    rw [emit_eq, emission_of_construct hkind (by decide), constructEmission, hkind]
    rfl
  have hreact : importsReact context node
      = (statementClause? node).any (·.namedChildren.any (partBindsReact context)) := by
    rw [importsReact, statementClause?, hclauseKind, hkind, htype]
    rfl
  rw [hrule, importStatement_eq, htype, if_neg Bool.false_ne_true, ← hclauseKind, ← statementClause?] at hrun ⊢
  split at hrun
  · cases hrun
  · next hrequire =>
    rw [if_neg hrequire, hreact, restDrafts]
    cases hclause : statementClause? node with
    | none =>
      rw [Option.any_none, State.note_false]
    | some clause =>
      have htext := clauseText?_eq_ite context (h.clause clause hclause).1
        ((kind_of_statementClause? hclause).trans hclauseKind)
      rw [hclause, Option.any_some, htext, beq_eq_false_iff_ne] at htexts
      rw [if_neg fun hnone => htexts (if_pos hnone)] at htext
      dsimp only
      rw [run_noteReact_bind, htext, Option.any_some, hclauseKind]

/-- The rule for an export that does not vanish. -/
theorem IsFrom.run_emit_export (h : IsFrom node) (hkind : node.kind = "export_statement")
    (hleaves : leavesNothing context node = false) {before after : State} {code : Code}
    (hrun : (emit context node).run before = .ok (code, after)) :
    emit context node = keptExport context node (restDrafts context node) := by
  have hclauseKind : clauseKind node = "export_clause" := by
    unfold clauseKind
    rw [hkind]
    rfl
  have htypes : exportsNothing context node = false := by
    rw [← Bool.not_eq_true, h.exportsNothing_iff context hkind]
    refine fun hstates => ?_
    rw [(h.leavesNothing_iff context).mpr (.inl hstates)] at hleaves
    cases hleaves
  rw [exportsNothing, Bool.or_eq_false_iff, ← hclauseKind, ← statementClause?] at htypes
  obtain ⟨htypes, htexts⟩ := htypes
  have hrule : emit context node = exportStatement context node (node.children.map (draft context)) := by
    rw [emit_eq, emission_of_construct hkind (by decide), constructEmission, hkind]
    rfl
  rw [hrule, exportStatement_eq, htypes, if_neg Bool.false_ne_true, ← hclauseKind, ← statementClause?] at hrun ⊢
  split at hrun
  · cases hrun
  · next hassignment =>
    rw [if_neg hassignment, restDrafts]
    cases hclause : statementClause? node with
    | none => rfl
    | some clause =>
      have htext := exportClauseText?_eq_ite context
        ((kind_of_statementClause? hclause).trans hclauseKind)
      rw [hclause, Option.any_some, htext, beq_eq_false_iff_ne] at htexts
      rw [if_neg fun hnone => htexts (if_pos hnone)] at htext
      dsimp only
      rw [htext]

/-- A statement that does not vanish has a source, if it is emitted at all. -/
theorem IsFrom.exists_source (h : IsFrom node) (hleaves : leavesNothing context node = false)
    {before after : State} {code : Code} (hrun : (emit context node).run before = .ok (code, after)) :
    ∃ literal, node.childByField? "source" = some literal := by
  rcases h.kind with hkind | ⟨-, hsource⟩
  · have hkept := (h.run_emit_import hkind hleaves hrun before).symm.trans hrun
    unfold keptImport at hkept
    rw [StateT.run_bind] at hkept
    obtain ⟨⟨literal, between⟩, hdemand, -⟩ := Result.bind_eq_ok_iff.mp hkept
    exact ⟨literal, (still_demand _ _ _ hdemand).2⟩
  · exact Option.isSome_iff_exists.mp hsource

/-- **What is left of a statement that does not vanish.** -/
theorem IsFrom.keepsRest (h : IsFrom node) (hleaves : leavesNothing context node = false)
    (hsource : node.childByField? "source" = some literal)
    {before after : State} {code : Code} (hrun : (emit context node).run before = .ok (code, after)) :
    KeepsRest context node literal := by
  obtain ⟨front, behind, opening, hchildren, hopening, hassemble⟩ :=
    h.assemble_restDrafts context hsource
  refine ⟨front, behind, opening, hchildren, hopening, fun state => ?_⟩
  rcases h.kind with hkind | ⟨hkind, -⟩
  · rw [h.run_emit_import hkind hleaves hrun, keptImport, hsource, ← funext hassemble]
    rfl
  · have hreact : importsReact context node = false := by
      unfold importsReact
      rw [hkind]
      rfl
    rw [h.run_emit_export hkind hleaves hrun, keptExport, hsource, hreact, State.note_false,
      ← funext hassemble]

/-! ## §5. Lowered modules -/

section Lower

variable {parser : Parser} {dialect : Dialect} {options : Options} {source : String}
  {lowered : LoweredModule}

/-- **Which imports and exports from a source vanish**: those that are marked as a whole or bind nothing
but types, and the imports with nothing in their braces.  Every other one is emitted with what is left
of its clause, and its source is collected.  So of a specifier that no other node records, it depends
on this whether it is an import. -/
theorem lower_statement_from (hok : lower parser dialect options source = .ok lowered)
    (hemits : Emits ⟨source, options⟩ (parser dialect source) node) (hnode : IsFrom node) :
    (Yields (emit ⟨source, options⟩ node) (· = []) ↔ StatesTypes node ∨ ImportsNothing node) ∧
    (¬ (StatesTypes node ∨ ImportsNothing node) → ∃ literal, node.childByField? "source" = some literal ∧
      Collects lowered ⟨source, options⟩ node literal ∧ KeepsRest ⟨source, options⟩ node literal) ∧
    ∀ literal, node.childByField? "source" = some literal →
      RecordsAlone ⟨source, options⟩ (parser dialect source) node (specifierOf source literal) →
      (specifierOf source literal ∈ lowered.imports ↔ ¬ (StatesTypes node ∨ ImportsNothing node)) := by
  obtain ⟨body, state, hbody, -⟩ := exists_run_of_lower hok
  obtain ⟨start, own, stop, hown, -⟩ := exists_run_of_emits hemits hbody
  have hrecorded := hnode.recordedLiteral?_eq_ite ⟨source, options⟩
  rw [← hnode.leavesNothing_iff ⟨source, options⟩, Bool.not_eq_true]
  refine ⟨⟨fun hyields => ?_, fun hleaves => ?_⟩, fun hkept => ?_, fun literal hliteral halone => ?_⟩
  · by_contra hkept
    rw [if_neg hkept] at hrecorded
    obtain ⟨literal, hliteral⟩ := hnode.exists_source ((Bool.not_eq_true _).mp hkept) hown
    -- the placeholder of the source stands in the code
    have hsite := (opened_of_run hown).site literal (hrecorded.trans hliteral)
    rw [(hyields start own stop (Nat.zero_le _) hown).2, List.infix_nil] at hsite
    exact absurd hsite (List.cons_ne_nil _ _)
  · rw [emit_eq]
    exact yields_nil_of_leavesNothing hleaves _
  · obtain ⟨literal, hliteral⟩ := hnode.exists_source hkept hown
    rw [hkept, if_neg Bool.false_ne_true, hliteral] at hrecorded
    exact ⟨literal, hliteral, collects_of_recorded hok hemits hrecorded, hnode.keepsRest hkept hliteral hown⟩
  · rw [mem_imports_iff_of_alone hok hemits halone, recordedSpecifier?, hrecorded, hliteral]
    cases leavesNothing ⟨source, options⟩ node <;> simp

end Lower

/-- The tree of an import with a clause, from the third word on ` from "./x";`. -/
def clauseImport (clause : Node) : Node :=
  ⟨"import_statement", true, false, 0, clause.stop + 12, none,
    [tokenNode "import" 0 6, clause, tokenNode "from" (clause.stop + 1) (clause.stop + 5),
      stringNode (some "source") (clause.stop + 6) (clause.stop + 11),
      tokenNode ";" (clause.stop + 11) (clause.stop + 12)]⟩

/-- A program that is such an import. -/
def clauseProgram (clause : Node) : Node :=
  ⟨"program", true, false, 0, clause.stop + 12, none, [clauseImport clause]⟩

/-- A statement with a clause of the grammar is an import. -/
theorem isFrom_clauseImport (hnamed : clause.isNamed = true) (hkind : clause.kind = "import_clause")
    (hfield : clause.field? = none) (h : IsClause clause) : IsFrom (clauseImport clause) where
  kind := .inl rfl
  declares hexport := absurd hexport (show "import_statement" ≠ "export_statement" by decide)
  clause found hfound := by
    have hclause : statementClause? (clauseImport clause) = some clause := by
      simp [statementClause?, clauseImport, clauseKind, Node.namedChildren, tokenNode, hnamed, hkind]
    obtain rfl : clause = found := Option.some.inj (hclause.symm.trans hfound)
    refine ⟨h, ?_⟩
    simp [childrenInFront, clauseImport, tokenNode, hfield]

/-- The clause `A,{type B,C}`. -/
def mixedClause : Node :=
  ⟨"import_clause", true, false, 7, 19, none,
    [⟨"identifier", true, false, 7, 8, none, []⟩, tokenNode "," 8 9,
      ⟨"named_imports", true, false, 9, 19, none,
        [tokenNode "\x7b" 9 10,
          ⟨"import_specifier", true, false, 10, 16, none,
            [tokenNode "type" 10 14, ⟨"identifier", true, false, 15, 16, some "name", []⟩]⟩,
          tokenNode "," 16 17,
          ⟨"import_specifier", true, false, 17, 18, none,
            [⟨"identifier", true, false, 17, 18, some "name", []⟩]⟩,
          tokenNode "\x7d" 18 19]⟩]⟩

theorem lower_mixedClause :
    lower (fun _ _ => clauseProgram mixedClause) .typescript {} "import A,\x7btype B,C\x7d from \"./x\";"
      = .ok ⟨"import A, \x7b C \x7d from \"./x\";", ["./x"], [⟨21, 26, "./x"⟩], false⟩ := by
  unfold lower
  rw [String.contains_char_eq, if_neg (by decide)]
  decide +kernel

/-- Without its type the clause stays. -/
theorem lower_statement_from_mixedClause :
    let lowered : LoweredModule := ⟨"import A, \x7b C \x7d from \"./x\";", ["./x"], [⟨21, 26, "./x"⟩], false⟩
    let context : Context := ⟨"import A,\x7btype B,C\x7d from \"./x\";", {}⟩
    leftOf context mixedClause = "A, \x7b C \x7d" ∧ ∃ literal,
      (clauseImport mixedClause).childByField? "source" = some literal ∧
      Collects lowered context (clauseImport mixedClause) literal ∧
      KeepsRest context (clauseImport mixedClause) literal := by
  intro lowered context
  have hnode : IsFrom (clauseImport mixedClause) :=
    isFrom_clauseImport rfl rfl rfl ⟨fun _ => rfl, by decide, List.cons_ne_nil _ _⟩
  have hemits : Emits context (clauseProgram mixedClause) (clauseImport mixedClause) :=
    .part .self (List.mem_of_getElem? (i := 0) rfl)
  obtain ⟨-, hkept, -⟩ := lower_statement_from lower_mixedClause hemits hnode
  refine ⟨by decide +kernel, hkept ?_⟩
  -- the name in front of the braces is bound
  have houter {clause : Node} (hclause : statementClause? (clauseImport mixedClause) = some clause) :
      outerNames clause ≠ [] := by
    obtain rfl : mixedClause = clause := Option.some.inj hclause
    exact List.cons_ne_nil _ _
  rintro ((htype | ⟨clause, hclause, hbinds⟩) | ⟨-, clause, hclause, hbinds⟩)
  · exact absurd htype (by decide)
  · exact houter hclause hbinds.outer
  · exact houter hclause hbinds.outer

/-- The clause of empty braces. -/
def emptyClause : Node :=
  ⟨"import_clause", true, false, 7, 9, none,
    [⟨"named_imports", true, false, 7, 9, none, [tokenNode "\x7b" 7 8, tokenNode "\x7d" 8 9]⟩]⟩

/-- **An import that vanishes without any types.**  It has no name marked as a type, nor is it marked
itself, but its source is not loaded. -/
theorem lower_empty_unloaded :
    let source := "import \x7b\x7d from \"./x\";"
    IsFrom (clauseImport emptyClause) ∧ ¬ StatesTypes (clauseImport emptyClause) ∧
      lower (fun _ _ => clauseProgram emptyClause) .typescript {} source = .ok ⟨"", [], [], false⟩ := by
  intro source
  refine ⟨isFrom_clauseImport rfl rfl rfl ⟨fun _ => rfl, by decide, List.cons_ne_nil _ _⟩, ?_, ?_⟩
  · rintro (htype | ⟨clause, hclause, -, hbraced, -⟩)
    · exact absurd htype (by decide)
    · obtain rfl : emptyClause = clause := Option.some.inj hclause
      exact hbraced rfl
  · unfold lower
    rw [String.contains_char_eq, if_neg (by decide)]
    decide +kernel

end LivePreview.Lowering
