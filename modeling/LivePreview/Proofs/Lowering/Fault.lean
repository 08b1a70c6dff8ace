/-
  LivePreview.Proofs.Lowering.Fault
  ─────────────────────────────────
  **The first fault of a source is the one that is reported.**

  The search for a fault keeps a stack of trees.  What is on the stack, with all that lies
  beneath it, is the rest of the document: opening a node leaves the order of its nodes as it
  is (`flatMap_preorder_cons`), and a tree that is taken off unseen has no fault in it
  (`hasFault_iff`).  So the search finds the first fault of the document
  (`searchFault_eq_find?`), and a tree with a fault is always rejected for one of its nodes
  (`lower_firstFault`).
-/
import LivePreview.Proofs.Lowering.Module
import LivePreview.Proofs.Syntax.Layout

namespace LivePreview.Syntax.Node

/-! ## §1. Trees with faults -/

/-- A tree holds a fault if one of its nodes is one. -/
theorem hasFault_iff {root : Node} : root.hasFault = true ↔ ∃ node ∈ root.preorder, node.isFault = true := by
  constructor
  · intro h
    by_contra hnone
    rw [hasFault_eq_false fun node hnode => Bool.eq_false_iff.mpr fun hfault => hnone ⟨node, hnode, hfault⟩] at h
    exact Bool.false_ne_true h
  · -- by induction on the tree: the fault is its root, or lies in a child that holds one
    rintro ⟨node, hnode, hfault⟩
    induction root using forall_of_children with
    | h root ih =>
      unfold hasFault at ih ⊢
      rw [fold_eq, Bool.or_eq_true]
      rw [preorder_eq] at hnode
      rcases List.mem_cons.mp hnode with rfl | hnode
      · exact .inl hfault
      · obtain ⟨_, hmap, hnode⟩ := List.mem_flatten.mp hnode
        obtain ⟨child, hchild, rfl⟩ := List.mem_map.mp hmap
        refine .inr (List.any_eq_true.mpr ⟨_, List.mem_map_of_mem hchild, ?_⟩)
        exact ih child hchild hnode

/-- What is taken for a fault. -/
theorem isFault_iff {node : Node} : node.isFault = true ↔ node.isMissing = true ∨ node.kind = "ERROR" := by
  unfold isFault
  rw [Bool.or_eq_true, beq_iff_eq]

/-! ## §2. The search -/

/-- **The search finds the first fault** of the trees on the stack, in document order. -/
theorem searchFault_eq_find? (stack : List Node) :
    searchFault stack = (stack.flatMap preorder).find? isFault := by
  induction stack using searchFault.induct with
  | case1 => rw [searchFault, List.flatMap_nil, List.find?_nil]
  | case2 node stack hfault =>
    rw [searchFault, if_pos hfault, flatMap_preorder_cons, List.find?_cons_of_pos hfault]
  | case3 node stack hfault hholds ih =>
    rw [searchFault, if_neg hfault, if_pos hholds, ih, flatMap_preorder_cons, List.find?_cons_of_neg hfault]
  | case4 node stack hfault hholds ih =>
    -- there is nothing to find in the tree that is passed over
    have hnone : node.preorder.find? isFault = none := by
      rw [List.find?_eq_none]
      exact fun other hother hisFault => hholds (hasFault_iff.mpr ⟨other, hother, hisFault⟩)
    rw [searchFault, if_neg hfault, if_neg hholds, ih, List.flatMap_cons, List.find?_append, hnone,
      Option.none_or]

theorem firstFault?_eq_find? (root : Node) : root.firstFault? = root.preorder.find? isFault := by
  rw [firstFault?, searchFault_eq_find?, List.flatMap_singleton]

end LivePreview.Syntax.Node

namespace LivePreview.Lowering

open LivePreview.Syntax (Node)

/-! ## §3. Rejected sources -/

section Lower

variable {parser : Parser} {dialect : Dialect} {options : Options} {source : String}

/-- **A source with faults is rejected for the first one**: of all nodes of its tree in document order
that are missing or stand around what was skipped, the rejection names the first, with the line on
which it starts, and it never says that the place is unknown.  Only a source with a NUL is rejected
before there is a tree. -/
theorem lower_firstFault (hfault : (parser dialect source).hasFault = true) :
    ∃ before node behind, (parser dialect source).preorder = before ++ node :: behind ∧
      (∀ other ∈ before, ¬(other.isMissing = true ∨ other.kind = "ERROR")) ∧
      (node.isMissing = true ∨ node.kind = "ERROR") ∧
      lower parser dialect options source
        = .error (.rejected (if NulFree source then ⟨faultCause source node, node.line source⟩
          else ⟨.nulCharacter, 1⟩)) ∧
      faultCause source node ≠ .unknownFault := by
  obtain ⟨found, hfound⟩ : ∃ node, (parser dialect source).firstFault? = some node := by
    rw [Node.firstFault?_eq_find?, ← Option.isSome_iff_exists, List.find?_isSome]
    exact Node.hasFault_iff.mp hfault
  have hreject : faultOf source (parser dialect source) = ⟨faultCause source found, found.line source⟩ := by
    rw [faultOf, hfound]
  rw [Node.firstFault?_eq_find?] at hfound
  obtain ⟨hisFault, before, behind, hsplit, hbefore⟩ := List.find?_eq_some_iff_append.mp hfound
  refine ⟨before, found, behind, hsplit, fun other hother => ?_, Node.isFault_iff.mp hisFault, ?_, ?_⟩
  · rw [← Node.isFault_iff]
    simpa using hbefore other hother
  · unfold lower
    rw [String.contains_char_eq]
    by_cases hnul : NulFree source
    · rw [decide_eq_false hnul, if_neg Bool.false_ne_true, if_pos hnul]
      dsimp only
      rw [if_pos hfault, hreject]
    · rw [decide_eq_true (not_not.mp hnul), if_pos rfl, if_neg hnul]
  · unfold faultCause
    split <;> exact nofun

end Lower

/-- The tree of a statement, of a bracket that was skipped on the next line, and of a statement whose
semicolon was put in. -/
def brokenTree : Node :=
  ⟨"program", true, false, 0, 7, none,
    [⟨"expression_statement", true, false, 0, 2, none,
        [⟨"identifier", true, false, 0, 1, none, []⟩, ⟨";", false, false, 1, 2, none, []⟩]⟩,
      ⟨"expression_statement", true, false, 3, 7, none,
        [⟨"ERROR", true, false, 3, 4, none, [⟨")", false, false, 3, 4, none, []⟩]⟩,
          ⟨"identifier", true, false, 5, 6, none, []⟩, ⟨";", false, true, 6, 6, none, []⟩]⟩]⟩

/-- Of the two faults behind the first statement, that on the second line comes first. -/
theorem lower_firstFault_brokenTree :
    NulFree "a;\n)\nb\n" ∧ brokenTree.hasFault = true ∧
      lower (fun _ _ => brokenTree) .tsx {} "a;\n)\nb\n" = .error (.rejected ⟨.unexpected ")", 2⟩) := by
  have hnul : NulFree "a;\n)\nb\n" := by decide
  have hfault : brokenTree.hasFault = true := by decide
  refine ⟨hnul, hfault, ?_⟩
  obtain ⟨before, node, behind, hsplit, hbefore, hnode, hlower, -⟩ :=
    @lower_firstFault (fun _ _ => brokenTree) .tsx {} "a;\n)\nb\n" hfault
  have hfound : brokenTree.preorder.find? Node.isFault = some node := by
    refine List.find?_eq_some_iff_append.mpr ⟨Node.isFault_iff.mpr hnode, before, behind, hsplit, ?_⟩
    exact fun other hother => by simpa using mt Node.isFault_iff.mp (hbefore other hother)
  have hskipped : brokenTree.preorder.find? Node.isFault
      = some ⟨"ERROR", true, false, 3, 4, none, [⟨")", false, false, 3, 4, none, []⟩]⟩ := by rfl
  rw [hlower, if_pos hnul, ← Option.some.inj (hskipped.symm.trans hfound)]
  decide +kernel

end LivePreview.Lowering
