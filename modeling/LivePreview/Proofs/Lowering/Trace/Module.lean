/-
  LivePreview.Proofs.Lowering.Trace.Module
  ────────────────────────────────────────
  **Tokens are run together only where all that stood between them is lost.**

  Whatever the rule for a node is, the code stems from the node (`traced_draft`), so the
  code of a module is that of a trace through its tree, behind the import of `React` if
  there is one (`apart_of_lower`).  In that code two tokens stand directly next to each
  other exactly where each stretch of the source between them has been lost:

      source   class A <T> extends B {}         class A<T>extends B{}
      code     class A  extends B {}            class Aextends B{}

  The second is no class any more: lost types leave no blank behind, though they may be all
  that keeps two words apart.
-/
import LivePreview.Proofs.Lowering.Module
import LivePreview.Proofs.Lowering.Trace.Declaration
import LivePreview.Proofs.Lowering.Trace.Jsx
import LivePreview.Proofs.Lowering.Trace.Statement

namespace LivePreview.Lowering

open LivePreview.Syntax (Node)

/-! ## §1. The rule for a node -/

section Rules

variable {context : Context} {root node : Node} {drafts : List Draft}

/-- A node with a type leaves its expression, and loses what stands around it. -/
theorem yields_emitDemanded {kept? : Option Draft} (hnode : node ∈ root.preorder)
    (h : Draft.AllTraced context root drafts) (hmem : ∀ kept, kept? = some kept → kept ∈ drafts)
    (hkept : unwrapped? node = kept?.map Draft.node) :
    Yields (emitDemanded kept?) (Stems context root node.start node.stop) := by
  unfold emitDemanded
  refine yields_demand.bind fun kept hfound => ?_
  rw [hfound, Option.map_some] at hkept
  have hemission := (h kept (hmem kept hfound)).emission
  intro before code after hcount hrun
  obtain ⟨hextends, hcode⟩ := hemission before code after hcount hrun
  -- the type, the words and the blanks around the expression go
  have hwhole := ((stems_lost (.front hnode hkept)).append hcode).append (stems_lost (.back hnode hkept))
  rw [List.nil_append, List.append_nil] at hwhole
  exact ⟨hextends, hwhole⟩

theorem yields_fieldDefinition (hnode : node ∈ root.preorder) (hkind : node.kind = "public_field_definition")
    (hnodes : drafts.map Draft.node = node.children) (h : Draft.Tracing context root drafts) :
    Yields (fieldDefinition context node drafts) (Stems context root node.start node.stop) := by
  unfold fieldDefinition
  split
  · next hdeclared =>
    refine yields_pure (stems_lost (.whole hnode ?_))
    unfold leavesNothing
    rw [hdeclared, hkind, beq_self_eq_true, Bool.and_self, Bool.or_true]
  · exact Draft.yields_dropTokens hnode hnodes h (by rw [hkind]; rfl)

variable (hplaced : ∀ node ∈ root.preorder, node.InPlace context.source) (hnode : node ∈ root.preorder)
  (hnodes : drafts.map Draft.node = node.children) (h : Draft.AllTraced context root drafts)
include hplaced hnode hnodes h

theorem yields_constructEmission (hwrapper : wrapperKinds.contains node.kind = false) :
    Yields (constructEmission context node drafts) (Stems context root node.start node.stop) := by
  unfold constructEmission
  split
  · next hkind => exact yields_importStatement hplaced hnode hkind hnodes h.tracing
  · next hkind => exact yields_exportStatement hplaced hnode hkind hnodes h.tracing
  · next hkind => exact yields_callExpression hplaced hnode hkind hnodes h
  · next hkind =>
    refine yields_emitDemanded hnode h.named (fun _ => List.mem_of_getLast?) ?_
    unfold unwrapped?
    rw [hwrapper, if_neg Bool.false_ne_true, hkind, if_pos (by decide), Draft.namedChildren_eq hnodes,
      List.getLast?_map]
  · next hkind => exact Draft.yields_dropTokens hnode hnodes h.tracing (by rw [hkind]; rfl)
  · next hkind => exact Draft.yields_dropTokens hnode hnodes h.tracing (by rw [hkind]; rfl)
  · next hkind => exact yields_fieldDefinition hnode hkind hnodes h.tracing
  · next hkind => exact Draft.yields_dropTokens hnode hnodes h.tracing (by rw [hkind]; rfl)
  · exact yields_reject
  · exact yields_reject
  · next hkind => exact yields_methodDefinition hplaced hnode hkind hnodes h
  · next hkind => exact yields_enumDeclaration hplaced hnode hkind hnodes h
  · split
    · next hkind =>
      have hrebuilt : IsRebuilt root node :=
        ⟨hnode, List.mem_append_right _ (List.contains_iff_mem.mp hkind)⟩
      exact yields_jsxElement hplaced hrebuilt (h.within hplaced hnode hnodes)
    · exact Draft.yields_assemble hnode hnodes h.tracing

theorem yields_emission :
    Yields (emission context node drafts) (Stems context root node.start node.stop) := by
  have hlost : (removedKinds.contains node.kind || node.isToken "readonly") = true →
      Stems context root node.start node.stop [] := by
    intro hremoved
    refine stems_lost (.whole hnode ?_)
    unfold leavesNothing
    rw [hremoved, Bool.true_or, Bool.true_or, Bool.true_or]
  unfold emission
  split
  · next hremoved => exact yields_pure (hlost (by rw [hremoved, Bool.true_or]))
  · split
    · next hwrapper =>
      refine yields_emitDemanded hnode h.named (fun _ => List.mem_of_head?) ?_
      unfold unwrapped?
      rw [if_pos hwrapper, Draft.namedChildren_eq hnodes, List.head?_map]
    · next hwrapper =>
      split
      · next hreadonly => exact yields_pure (hlost (by rw [hreadonly, Bool.or_true]))
      · exact yields_constructEmission hplaced hnode hnodes h ((Bool.not_eq_true _).mp hwrapper)

end Rules

/-! ## §2. Trees -/

section Trees

variable {context : Context} {root node : Node}
  (hplaced : ∀ node ∈ root.preorder, node.InPlace context.source)
include hplaced

/-- **The draft of every node of the tree is traced.** -/
theorem traced_draft (hnode : node ∈ root.preorder) : (draft context node).Traced context root := by
  induction node using Node.forall_of_children with
  | h node ih =>
    have hnodes := map_node_draft context node.children
    have hchildren : Draft.AllTraced context root (node.children.map (draft context)) := by
      intro child hchild
      obtain ⟨original, horiginal, rfl⟩ := List.mem_map.mp hchild
      exact ih original horiginal (Node.mem_preorder_of_child hnode horiginal)
    rw [draft_eq]
    exact .intro hnode hnodes hchildren (yields_emission hplaced hnode hnodes hchildren)

/-- The code of a module stems from its tree, behind the import of `React` if it needs one. -/
theorem stems_emitModule {code : Code} {imports : List Text} {state : State}
    (hok : (emitModule context root).run {} = .ok ((code, imports), state)) :
    ∃ front body, code = front ++ body ∧ Stems context root root.start root.stop body := by
  unfold emitModule at hok
  rw [StateT.run_bind] at hok
  obtain ⟨⟨body, between⟩, hbody, hrest⟩ := Result.bind_eq_ok_iff.mp hok
  have htraced := traced_draft hplaced (Node.mem_preorder_self root)
  obtain ⟨-, hstems⟩ := htraced.emission {} body between (Nat.zero_le _) hbody
  rw [node_draft] at hstems
  rcases withPreamble_eq_ok hrest with ⟨-, rfl, -⟩ | ⟨source, -, rfl, -⟩
  · exact ⟨[], code, rfl, hstems⟩
  · exact ⟨_, body, rfl, hstems⟩

end Trees

/-! ## §3. Modules -/

/-- What segments have become in a module with the given specifiers. -/
def written (source : String) (specifiers : List Text) (segments : List Segment) : List Char :=
  (spelled source segments).filled specifiers

theorem written_append (source : String) (specifiers : List Text) (segments others : List Segment) :
    written source specifiers (segments ++ others)
      = written source specifiers segments ++ written source specifiers others := by
  unfold written spelled
  rw [List.flatMap_append, Code.filled_append]

theorem written_token (source : String) (specifiers : List Text) (leaf : Node) (segments : List Segment) :
    written source specifiers (.token leaf :: segments)
      = (leaf.text source).toList ++ written source specifiers segments := by
  unfold written spelled
  rw [List.flatMap_cons, Code.filled_append]
  exact congrArg (· ++ _) (Code.filled_ofText specifiers _)

/-- Nothing is written exactly where nothing is left. -/
theorem written_eq_nil_iff (context : Context) {root : Node}
    (hplaced : ∀ node ∈ root.preorder, node.InPlace context.source) (specifiers : List Text)
    {segments : List Segment} (h : ∀ segment ∈ segments, segment.Justified context root) :
    written context.source specifiers segments = []
      ↔ ∀ segment ∈ segments, segment.leavesCode = false := by
  unfold written
  rw [Code.filled_eq_nil_iff]
  exact spelled_eq_nil_iff hplaced h

section Lower

variable {parser : Parser} {dialect : Dialect} {options : Options} {source : String}
  {lowered : LoweredModule}

/-- The code of a module goes through its tree: what is left of the source comes in the order of the
source, up to the constructs that are rebuilt.  Two tokens stand directly next to each other
exactly where nothing is left of what stood between them. -/
theorem apart_of_lower (hfactory : NulFree options.factory) (hfragment : NulFree options.fragment)
    (hplaced : ∀ node ∈ (parser dialect source).preorder, node.InPlace source)
    (hok : lower parser dialect options source = .ok lowered) :
    ∃ front trace specifiers,
      Runs ⟨source, options⟩ (parser dialect source) (parser dialect source).start trace
        (parser dialect source).stop ∧
      lowered.code.toList = front ++ written source specifiers trace ∧
      ∀ before first between second behind,
        trace = before ++ .token first :: (between ++ .token second :: behind) →
        lowered.code.toList
            = front ++ (written source specifiers before ++ ((first.text source).toList
              ++ (written source specifiers between ++ ((second.text source).toList
                ++ written source specifiers behind)))) ∧
          (written source specifiers between = [] ↔ ∀ segment ∈ between, segment.leavesCode = false) := by
  obtain ⟨hsource, code, state, hrun, hfinish⟩ := lower_eq_ok hok
  have hclean : code.IsClean state.sites.length :=
    (emitModule_eq_ok hrun).1 ⟨hsource, hfactory, hfragment⟩
  obtain ⟨front, _, rfl, trace, hruns, rfl⟩ := stems_emitModule hplaced hrun
  -- the code is clean, so that finishing it fills in each of its pieces
  have hcode : lowered.code.toList
      = front.filled state.sites ++ written source state.sites trace := by
    rw [hclean.toList_finish hfinish, Code.filled_append, written]
  refine ⟨front.filled state.sites, trace, state.sites, hruns, hcode, ?_⟩
  intro before first between second behind htrace
  -- what is between the tokens is part of the trace, so the tree bears it out
  have hbetween : ∀ segment ∈ between, segment.Justified ⟨source, options⟩ (parser dialect source) := by
    intro segment hsegment
    refine hruns.justified segment ?_
    rw [htrace]
    exact List.mem_append_right _ (List.mem_cons_of_mem _ (List.mem_append_left _ hsegment))
  refine ⟨?_, written_eq_nil_iff ⟨source, options⟩ hplaced state.sites hbetween⟩
  rw [hcode, htrace, written_append, written_token, written_append, written_token]

end Lower

/-- The tree of a class `A<T>` that extends `B`, with some blanks behind the type parameter. -/
def genericClass (blanks : Nat) : Node :=
  ⟨"program", true, false, 0, 21 + blanks, none,
    [⟨"class_declaration", true, false, 0, 21 + blanks, none,
      [⟨"class", false, false, 0, 5, none, []⟩,
        ⟨"type_identifier", true, false, 6, 7, some "name", []⟩,
        ⟨"type_parameters", true, false, 7, 10, some "type_parameters",
          [⟨"<", false, false, 7, 8, none, []⟩,
            ⟨"type_parameter", true, false, 8, 9, none,
              [⟨"type_identifier", true, false, 8, 9, some "name", []⟩]⟩,
            ⟨">", false, false, 9, 10, none, []⟩]⟩,
        ⟨"class_heritage", true, false, 10 + blanks, 19 + blanks, none,
          [⟨"extends_clause", true, false, 10 + blanks, 19 + blanks, none,
            [⟨"extends", false, false, 10 + blanks, 17 + blanks, none, []⟩,
              ⟨"identifier", true, false, 18 + blanks, 19 + blanks, some "value", []⟩]⟩]⟩,
        ⟨"class_body", true, false, 19 + blanks, 21 + blanks, some "body",
          [⟨"\x7b", false, false, 19 + blanks, 20 + blanks, none, []⟩,
            ⟨"\x7d", false, false, 20 + blanks, 21 + blanks, none, []⟩]⟩]⟩]⟩

theorem lower_genericClass_one :
    lower (fun _ _ => genericClass 1) .typescript {} "class A<T> extends B\x7b\x7d"
      = .ok ⟨"class A extends B\x7b\x7d", [], [], false⟩ := by
  unfold lower
  rw [String.contains_char_eq, if_neg (by decide)]
  rfl

theorem inPlace_genericClass_one :
    ∀ node ∈ (genericClass 1).preorder, node.InPlace "class A<T> extends B\x7b\x7d" := by
  decide +kernel

/-- The blank behind the type parameter keeps the name of the class apart from what it extends. -/
theorem apart_of_lower_genericClass :
    let source := "class A<T> extends B\x7b\x7d"
    ∃ front trace specifiers,
      Runs ⟨source, {}⟩ (genericClass 1) 0 trace 22 ∧
      "class A extends B\x7b\x7d".toList = front ++ written source specifiers trace ∧
      ∀ before first between second behind,
        trace = before ++ .token first :: (between ++ .token second :: behind) →
        "class A extends B\x7b\x7d".toList
            = front ++ (written source specifiers before ++ ((first.text source).toList
              ++ (written source specifiers between ++ ((second.text source).toList
                ++ written source specifiers behind)))) ∧
          (written source specifiers between = [] ↔ ∀ segment ∈ between, segment.leavesCode = false) :=
  apart_of_lower (by decide) (by decide) inPlace_genericClass_one lower_genericClass_one

/-- Without the blank the name and the keyword become one word: both are copied, the type parameter
stood between them, and nothing has come in its place. -/
theorem lower_genericClass_glued :
    let source := "class A<T>extends B\x7b\x7d"
    ∃ first ∈ (genericClass 0).preorder, ∃ second ∈ (genericClass 0).preorder,
      first.children = [] ∧ second.children = [] ∧
      Node.slice source first.stop second.start = "<T>" ∧
      (first.text source).toList.getLast?.any Char.isAlphanum = true ∧
      (second.text source).toList.head?.any Char.isAlphanum = true ∧
      lower (fun _ _ => genericClass 0) .typescript {} source
        = .ok ⟨"class " ++ first.text source ++ second.text source ++ " B\x7b\x7d", [], [], false⟩ := by
  refine ⟨⟨"type_identifier", true, false, 6, 7, some "name", []⟩, ?_,
    ⟨"extends", false, false, 10, 17, none, []⟩, ?_, rfl, rfl, rfl, by decide, by decide, ?_⟩
  · exact List.mem_of_getElem? (i := 3) rfl
  · exact List.mem_of_getElem? (i := 11) rfl
  · unfold lower
    rw [String.contains_char_eq, if_neg (by decide)]
    rfl

end LivePreview.Lowering
