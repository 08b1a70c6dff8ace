/-
  LivePreview.Proofs.Lowering.Trace.Statement
  ───────────────────────────────────────────
  **Where the code of imports, exports and calls stems from.**

  What is left of a clause are the texts of its parts, with commas and braces of its own
  between them; what stands in front of the first part of an import clause and behind the
  last one is lost (`stems_clauseText?`).  In an export clause only the names are kept
  (`stems_exportClauseText?`).  The literal of a source is a placeholder.
-/
import LivePreview.Proofs.Lowering.Trace.Draft

namespace LivePreview.Lowering

open LivePreview.Syntax (Node)

variable {context : Context} {root construct node : Node} {drafts : List Draft}

/-! ## §1. Texts with separators -/

theorem Code.ofText_intercalate (separator : String) (texts : List String) :
    Code.ofText (separator.intercalate texts) = Code.joinWith separator (texts.map Code.ofText) := by
  induction texts with
  | nil => rw [String.intercalate_nil]; rfl
  | cons text texts ih =>
    cases texts with
    | nil => rw [String.intercalate_singleton]; rfl
    | cons next texts =>
      rw [String.intercalate_cons_cons, Code.ofText_append, Code.ofText_append, ih]
      rfl

/-- Codes of parts that stand one behind the other, with a separator between them. -/
theorem stems_joinWith {parts : List Node} {code : Node → Code} {separator : String}
    (hseparator : StemsAnywhere context root construct (.ofText separator))
    (hparts : ∀ part ∈ parts, IsPart root construct part ∧ part.start ≤ part.stop ∧
      Stems context root part.start part.stop (code part))
    {first last : Node} (hfirst : parts.head? = some first) (hlast : parts.getLast? = some last) :
    Stems context root first.start last.stop (Code.joinWith separator (parts.map code)) := by
  induction parts generalizing first with
  | nil => cases hfirst
  | cons part parts ih =>
    cases hfirst
    obtain ⟨⟨hpart, hle, hcode⟩, hrest⟩ := List.forall_mem_cons.mp hparts
    cases parts with
    | nil =>
      cases hlast
      exact hcode
    | cons next parts =>
      -- the separator goes from the end of the part to the start of the next one
      obtain ⟨hnext, hnextLe, -⟩ := hrest next List.mem_cons_self
      rw [List.getLast?_cons_cons] at hlast
      have hbetween := hseparator part.stop next.start (hpart.spans_stop hle) (hnext.spans_start hnextLe)
      exact (hcode.append hbetween).append (ih hrest rfl hlast)

/-! ## §2. Clauses -/

/-- The text that a part of an import clause keeps, if it keeps one. -/
def keptText (context : Context) (part : Node) : String :=
  (clauseParts context part).headD ""

/-- The texts of a clause are those of the parts that keep one. -/
theorem flatMap_clauseParts {parts : List Node}
    (h : ∀ part ∈ parts, clauseParts context part = [] ∨ clauseParts context part = [keptText context part]) :
    parts.flatMap (clauseParts context)
      = (parts.filter fun part => !(clauseParts context part).isEmpty).map (keptText context) := by
  induction parts with
  | nil => rfl
  | cons part parts ih =>
    obtain ⟨hpart, hrest⟩ := List.forall_mem_cons.mp h
    rw [List.flatMap_cons, ih hrest]
    rcases hpart with hnone | hone
    · rw [List.filter_cons_of_neg (by simp [hnone]), hnone, List.nil_append]
    · rw [List.filter_cons_of_pos (by simp [hone]), List.map_cons, hone, List.singleton_append]

section Clauses

variable (hplaced : ∀ node ∈ root.preorder, node.InPlace context.source)
include hplaced

/-- The texts of parts of the construct, in braces. -/
theorem stemsAnywhere_braced (hconstruct : IsRebuilt root construct) {parts : List Node}
    (hparts : ∀ part ∈ parts, IsPart root construct part) :
    StemsAnywhere context root construct (.ofText (braced (parts.map context.text))) := by
  unfold braced
  rw [Code.ofText_append, Code.ofText_append, Code.ofText_intercalate]
  refine StemsAnywhere.around_joinWith (stemsAnywhere_fixed hconstruct (by decide))
    (stemsAnywhere_fixed hconstruct (by decide)) (fun code hcode => ?_)
    (stemsAnywhere_fixed hconstruct (by decide)) (hplaced construct hconstruct.mem).le
  rw [List.map_map] at hcode
  obtain ⟨part, hpart, rfl⟩ := List.mem_map.mp hcode
  exact (hparts part hpart).text_stemsWithin hplaced

/-- A part of an import clause keeps at most one text, which stems from it. -/
theorem stems_clauseParts (hconstruct : IsRebuilt root construct) {part : Node}
    (hpart : IsPart root construct part) :
    clauseParts context part = [] ∨ clauseParts context part = [keptText context part] ∧
      Stems context root part.start part.stop (.ofText (keptText context part)) := by
  unfold keptText clauseParts
  split
  · exact .inr ⟨rfl, stems_text hplaced hpart.mem⟩
  · split
    · -- the names in braces that are left, if any are
      split
      · exact .inl rfl
      · next kept _ =>
        refine .inr ⟨rfl, ?_⟩
        refine (stemsAnywhere_braced hplaced hconstruct fun name hname => ?_).in_place_of hplaced hpart
        exact hpart.of_mem_children hplaced (List.mem_filter.mp (List.mem_filter.mp hname).1).1
    · exact .inl rfl

/-- The texts of the parts that are left, with commas between them; what stands in front of the first
part and behind the last one is lost. -/
theorem stems_keptParts (hconstruct : IsRebuilt root construct) {clause : Node}
    (hclause : IsPart root construct clause) (hkept : keptParts context clause ≠ []) :
    Stems context root clause.start clause.stop
      (.ofText (", ".intercalate ((keptParts context clause).map (keptText context)))) := by
  have hparts : ∀ part ∈ keptParts context clause, IsPart root construct part ∧
      part.start ≤ part.stop ∧ Stems context root part.start part.stop (.ofText (keptText context part)) := by
    intro part hmem
    obtain ⟨hchild, htexts⟩ := List.mem_filter.mp hmem
    have hpart := hclause.of_mem_children hplaced (List.mem_filter.mp hchild).1
    refine ⟨hpart, (hplaced part hpart.mem).le, ?_⟩
    rcases stems_clauseParts hplaced hconstruct hpart with hnone | ⟨-, hstems⟩
    · rw [hnone] at htexts
      cases htexts
    · exact hstems
  have hfirst := List.head?_eq_some_head hkept
  have hlast := List.getLast?_eq_some_getLast hkept
  have hseparator : StemsAnywhere context root construct (.ofText ", ") :=
    stemsAnywhere_fixed hconstruct (by decide)
  have hjoined := stems_joinWith hseparator hparts hfirst hlast
  have hwhole := ((stems_lost (.clauseFront hclause.mem hfirst)).append hjoined).append
    (stems_lost (.clauseBack hclause.mem hlast))
  rw [List.nil_append, List.append_nil] at hwhole
  rw [Code.ofText_intercalate, List.map_map]
  exact hwhole

/-- The text of an import clause stems from the clause. -/
theorem stems_clauseText? (hconstruct : IsRebuilt root construct) {clause : Node}
    (hclause : IsPart root construct clause) {text : String} (htext : clauseText? context clause = some text) :
    Stems context root clause.start clause.stop (.ofText text) := by
  have hparts : clause.namedChildren.flatMap (clauseParts context)
      = (keptParts context clause).map (keptText context) := by
    refine flatMap_clauseParts fun part hmem => ?_
    have hpart := hclause.of_mem_children hplaced (List.mem_filter.mp hmem).1
    exact (stems_clauseParts hplaced hconstruct hpart).imp_right And.left
  unfold clauseText? at htext
  split at htext
  · -- a clause that keeps no part is copied as it is, or vanishes with its statement
    split at htext
    · cases htext
    · cases htext
      exact stems_text hplaced hclause.mem
  · next hne =>
    cases htext
    rw [hparts] at hne ⊢
    exact stems_keptParts hplaced hconstruct hclause fun hnil => hne (List.map_eq_nil_iff.mpr hnil)

/-- What is left of an export clause stems from it. -/
theorem stems_exportClauseText? (hconstruct : IsRebuilt root construct) {clause : Node}
    (hclause : IsPart root construct clause) {text : String}
    (htext : exportClauseText? context clause = some text) :
    Stems context root clause.start clause.stop (.ofText text) := by
  unfold exportClauseText? at htext
  dsimp only at htext
  split at htext
  · split at htext
    · cases htext
      exact stems_text hplaced hclause.mem
    · cases htext
  · cases htext
    refine (stemsAnywhere_braced hplaced hconstruct fun name hname => ?_).in_place_of hplaced hclause
    have hnamed := (List.mem_filter.mp (List.mem_filter.mp hname).1).1
    exact hclause.of_mem_children hplaced (List.mem_filter.mp hnamed).1

end Clauses

/-! ## §3. Statements -/

/-- The draft of the first construct of a kind. -/
theorem node_of_find? {kind : String} {draft : Draft} (hnodes : drafts.map Draft.node = node.children)
    (hdraft : drafts.find? (fun d => d.isNamed && d.kind == kind) = some draft) :
    node.namedChildren.find? (·.kind == kind) = some draft.node := by
  have hnamed : (fun child : Node => decide (child.isNamed = true ∧ (child.kind == kind) = true)) ∘ Draft.node
      = fun d : Draft => d.isNamed && d.kind == kind := by
    funext d
    rw [Function.comp_apply, Bool.decide_and, Bool.decide_eq_true, Bool.decide_eq_true]
    rfl
  unfold Node.namedChildren
  rw [List.find?_filter, ← hnodes, List.find?_map, hnamed, hdraft]
  rfl

/-- The text in place of a clause stems from the clause. -/
theorem tracing_replaceClause {kind text : String} {clause : Node}
    (hnodes : drafts.map Draft.node = node.children) (h : Draft.Tracing context root drafts)
    (hclause : node.namedChildren.find? (·.kind == kind) = some clause)
    (htext : Stems context root clause.start clause.stop (.ofText text)) :
    Draft.Tracing context root (replaceClause kind text drafts) := by
  refine h.replaceFirst fun draft hdraft => yields_pure ?_
  -- the clause that the rule has looked at is the one that is replaced
  rw [node_of_find? hnodes hdraft] at hclause
  cases hclause
  exact htext

section Statements

variable (hplaced : ∀ node ∈ root.preorder, node.InPlace context.source)
include hplaced

/-- Code of its own in place of the source. -/
theorem tracing_replaceSource (hnode : IsRebuilt root node) {literal : Code} (hne : literal ≠ [])
    (hliteral : IsMade context.options literal) (hnodes : drafts.map Draft.node = node.children)
    (h : Draft.Tracing context root drafts) :
    Draft.Tracing context root (replaceSource literal drafts) := by
  refine h.replaceFirst fun draft hdraft => yields_pure ?_
  have hchild := Draft.node_mem_children hnodes (List.mem_of_find?_eq_some hdraft)
  have hpart := (isPart_self hnode.mem).of_mem_children hplaced hchild
  exact (stemsAnywhere_made hnode hliteral hne).in_place_of hplaced hpart

theorem yields_keptImport (hnode : IsRebuilt root node) (hnodes : drafts.map Draft.node = node.children)
    (h : Draft.Tracing context root drafts) :
    Yields (keptImport context node drafts) (Stems context root node.start node.stop) := by
  unfold keptImport
  refine yields_demand.bind fun source _ => (yields_recordImport context.options).bind fun literal hliteral => ?_
  exact Draft.yields_assemble hnode.mem ((Draft.map_node_replaceFirst _ _ _).trans hnodes)
    (tracing_replaceSource hplaced hnode hliteral.1 hliteral.2 hnodes h)

theorem yields_importStatement (hnode : node ∈ root.preorder) (hkind : node.kind = "import_statement")
    (hnodes : drafts.map Draft.node = node.children) (h : Draft.Tracing context root drafts) :
    Yields (importStatement context node drafts) (Stems context root node.start node.stop) := by
  have hrebuilt : IsRebuilt root node := ⟨hnode, by rw [hkind]; decide⟩
  have hlost : importsTypes context node = true → Stems context root node.start node.stop [] := by
    intro himports
    refine stems_lost (.whole hnode ?_)
    simp [leavesNothing, hkind, himports]
  unfold importStatement
  dsimp only
  split
  · next htype => exact yields_pure (hlost (by simp [importsTypes, htype]))
  · split
    · exact Yields.bind (P := fun _ => False) yields_reject fun _ hfalse => hfalse.elim
    · split
      · exact yields_keptImport hplaced hrebuilt hnodes h
      · next clause hclause =>
        have hmem : clause ∈ node.children :=
          (List.mem_filter.mp (List.mem_of_find?_eq_some hclause)).1
        refine Yields.bind (P := fun _ => True) ?_ fun _ _ => ?_
        · exact ensures_noteReact
        · split
          · next hnone => exact yields_pure (hlost (by simp [importsTypes, hclause, hnone]))
          · next text htext =>
            have hstems := stems_clauseText? hplaced hrebuilt
              ((isPart_self hnode).of_mem_children hplaced hmem) htext
            exact yields_keptImport hplaced hrebuilt ((Draft.map_node_replaceFirst _ _ _).trans hnodes)
              (tracing_replaceClause hnodes h hclause hstems)

theorem yields_keptExport (hnode : IsRebuilt root node) (hnodes : drafts.map Draft.node = node.children)
    (h : Draft.Tracing context root drafts) :
    Yields (keptExport context node drafts) (Stems context root node.start node.stop) := by
  unfold keptExport
  split
  · exact Draft.yields_assemble hnode.mem hnodes h
  · refine (yields_recordImport context.options).bind fun literal hliteral => ?_
    exact Draft.yields_assemble hnode.mem ((Draft.map_node_replaceFirst _ _ _).trans hnodes)
      (tracing_replaceSource hplaced hnode hliteral.1 hliteral.2 hnodes h)

theorem yields_exportStatement (hnode : node ∈ root.preorder) (hkind : node.kind = "export_statement")
    (hnodes : drafts.map Draft.node = node.children) (h : Draft.Tracing context root drafts) :
    Yields (exportStatement context node drafts) (Stems context root node.start node.stop) := by
  have hrebuilt : IsRebuilt root node := ⟨hnode, by rw [hkind]; decide⟩
  have hlost : exportsNothing context node = true → Stems context root node.start node.stop [] := by
    intro hexports
    refine stems_lost (.whole hnode ?_)
    simp [leavesNothing, hkind, hexports]
  unfold exportStatement
  dsimp only
  split
  · next htypes => exact yields_pure (hlost (by simp [exportsNothing, htypes]))
  · split
    · exact Yields.bind (P := fun _ => False) yields_reject fun _ hfalse => hfalse.elim
    · split
      · exact yields_keptExport hplaced hrebuilt hnodes h
      · next clause hclause =>
        have hmem : clause ∈ node.children :=
          (List.mem_filter.mp (List.mem_of_find?_eq_some hclause)).1
        split
        · next hnone => exact yields_pure (hlost (by simp [exportsNothing, hclause, hnone]))
        · next text htext =>
          have hstems := stems_exportClauseText? hplaced hrebuilt
            ((isPart_self hnode).of_mem_children hplaced hmem) htext
          exact yields_keptExport hplaced hrebuilt ((Draft.map_node_replaceFirst _ _ _).trans hnodes)
            (tracing_replaceClause hnodes h hclause hstems)

/-! ## §4. Calls -/

/-- The placeholder of an imported literal stands in place of the first argument. -/
theorem yields_callExpression (hnode : node ∈ root.preorder) (hkind : node.kind = "call_expression")
    (hnodes : drafts.map Draft.node = node.children) (h : Draft.AllTraced context root drafts) :
    Yields (callExpression context node drafts) (Stems context root node.start node.stop) := by
  have hrebuilt : IsRebuilt root node := ⟨hnode, by rw [hkind]; decide⟩
  unfold callExpression
  split
  · exact Draft.yields_assemble hnode hnodes h.tracing
  · -- the argument is exchanged in a node that is itself a child of the call
    refine (yields_recordImport context.options).bind fun literal hliteral => ?_
    refine Draft.yields_assemble hnode ((Draft.map_node_replaceFirst _ _ _).trans hnodes)
      (h.tracing.replaceFirst fun arguments harguments => ?_)
    have hwithin : arguments.Within context root node :=
      h.within hplaced hnode hnodes arguments (List.mem_of_find?_eq_some harguments)
    refine Draft.yields_assemble hwithin.part.mem
      ((Draft.map_node_replaceFirst _ _ _).trans hwithin.traced.nodes_eq)
      (hwithin.traced.children.tracing.replaceFirst fun first hfirst => yields_pure ?_)
    have hpart := (hwithin.children hplaced first (List.mem_of_find?_eq_some hfirst)).part
    exact (stemsAnywhere_made hrebuilt hliteral.2 hliteral.1).in_place_of hplaced hpart

end Statements

end LivePreview.Lowering
