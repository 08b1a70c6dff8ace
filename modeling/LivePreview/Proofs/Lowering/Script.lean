/-
  LivePreview.Proofs.Lowering.Script
  ──────────────────────────────────
  **What needs no lowering is copied.**

  A node that is emitted as it stands, with all its tokens, is its own text in which the
  codes of the children have come in place of their texts (`IsWhole.run_iff`):

      source   f(a as T, b)         the gaps and children of the arguments:
      code     f(a, b)              "" ( "" a as T "" , " " b "" ) ""

  A tree in which every node is of this kind (`IsPlain`), so that there is no type, no element, and
  no import or export to link, is a script.  Its code is the text of the root, byte by byte, unless
  too many nodes lie inside one another (`lower_script`).
-/
import LivePreview.Proofs.Lowering.Emitted.Call

namespace LivePreview.Lowering

open LivePreview.Syntax (Node)

variable {context : Context} {node : Node}

/-! ## §1. Gaps and codes -/

/-- Codes with texts between them, in front of the first one and behind the last. -/
def weave : List String → List Code → Code
  | gap :: gaps, code :: codes => Code.ofText gap ++ code ++ weave gaps codes
  | gap :: _, [] => Code.ofText gap
  | [], _ => []

/-- **A stretch is emitted as its gaps with the codes of its nodes between them.** -/
theorem run_emitStretch_iff {start stop : Nat} {nodes : List Node} {before after : State} {code : Code} :
    (emitStretch context start stop nodes).run before = .ok (code, after) ↔
      ∃ codes, Chain context before nodes codes after ∧
        code = weave (Node.gaps context.source stop start nodes) codes := by
  induction nodes generalizing start before code with
  | nil =>
    constructor
    · intro hrun
      cases hrun
      exact ⟨[], .nil, rfl⟩
    · rintro ⟨codes, hchain, rfl⟩
      cases hchain
      rfl
  | cons node nodes ih =>
    rw [← List.nil_append (node :: nodes), emitStretch_append]
    show ((do
      let own ← emit context node
      let rest ← emitStretch context node.stop stop nodes
      return Code.ofText (Node.slice context.source start node.start) ++ own ++ rest).run before = _) ↔ _
    rw [StateT.run_bind, Result.bind_eq_ok_iff]
    constructor
    · rintro ⟨⟨own, between⟩, hown, hrest⟩
      rw [StateT.run_bind, Result.bind_eq_ok_iff] at hrest
      obtain ⟨⟨rest, last⟩, hrest, hdone⟩ := hrest
      cases hdone
      obtain ⟨codes, hchain, rfl⟩ := ih.mp hrest
      exact ⟨own :: codes, .cons hown hchain, rfl⟩
    · rintro ⟨codes, hchain, rfl⟩
      cases hchain with
      | @cons _ between _ _ _ own codes hown hrest =>
        refine ⟨(own, between), hown, ?_⟩
        rw [StateT.run_bind, Result.bind_eq_ok_iff]
        exact ⟨(weave (Node.gaps context.source stop node.stop nodes) codes, after),
          ih.mpr ⟨codes, hrest, rfl⟩, rfl⟩

/-- The text of a stretch is its gaps with the texts of its nodes between them. -/
theorem ofText_slice_eq_weave {start stop : Nat} {nodes : List Node}
    (hstart : Node.IsBoundary context.source start) (hstop : Node.IsBoundary context.source stop)
    (hrow : Node.InRow stop start nodes) (hplaced : ∀ node ∈ nodes, node.InPlace context.source) :
    Code.ofText (Node.slice context.source start stop)
      = weave (Node.gaps context.source stop start nodes)
          (nodes.map fun node => Code.ofText (context.text node)) := by
  induction nodes generalizing start with
  | nil => rfl
  | cons node nodes ih =>
    obtain ⟨hgap, hle, hrow⟩ := hrow
    obtain ⟨hplace, hplaced⟩ := List.forall_mem_cons.mp hplaced
    rw [Node.gaps, List.map_cons, weave, ← ih hplace.stop_isBoundary hrow hplaced, ← Code.ofText_append,
      ← Code.ofText_append, Context.text, Node.text,
      Node.slice_append hstart hplace.start_isBoundary hplace.stop_isBoundary hgap hle,
      Node.slice_append hstart hplace.stop_isBoundary hstop (Nat.le_trans hgap hle) hrow.le]

/-! ## §2. Nodes that keep all their children -/

/-- The node is emitted as it stands, and loses none of its tokens. -/
inductive IsWhole (context : Context) (node : Node) : Prop where
  | assembled (h : IsAssembled context node)
    (hkept : ∀ child ∈ node.children, child.isNamed = false → child.kind ∉ droppedTokens node.kind)
  /-- An export of a declaration, or of a value. -/
  | exported (hkind : node.kind = "export_statement") (htypes : exportsTypes node = false)
    (hassigns : node.hasToken "=" = false)
    (hclause : node.namedChildren.find? (·.kind == "export_clause") = none)
    (hsource : node.childByField? "source" = none)

/-- A node from which no token is dropped is emitted from all its children. -/
theorem dropTokens_of_kept {kinds : List String}
    (hkept : ∀ child ∈ node.children, child.isNamed = false → child.kind ∉ kinds) :
    Draft.dropTokens context kinds node (node.children.map (draft context))
      = Draft.assemble context node (node.children.map (draft context)) := by
  have hnone : ∀ child ∈ node.children, (!child.isNamed && kinds.contains child.kind) = false := by
    intro child hchild
    cases hnamed : child.isNamed with
    | true => rfl
    | false =>
      have hkind := hkept child hchild hnamed
      simpa using hkind
  unfold Draft.dropTokens
  rw [replaceEach_eq_self (forall_map_draft (fun child => ?_) hnone)]
  unfold Draft.isTokenAmong Draft.isNamed Draft.kind
  rw [node_draft]

/-- With its children or without any, a node is emitted like the stretch that it takes up. -/
theorem assemble_eq_emitStretch (node : Node) :
    Draft.assemble context node (node.children.map (draft context))
      = emitStretch context node.start node.stop node.children := by
  unfold Draft.assemble
  split
  · next hempty =>
    rw [List.map_eq_nil_iff.mp (List.isEmpty_iff.mp hempty)]
    rfl
  · rfl

theorem IsWhole.emit_eq_emitStretch (h : IsWhole context node) :
    emit context node = emitStretch context node.start node.stop node.children := by
  rw [← assemble_eq_emitStretch, emit_eq]
  cases h with
  | assembled h hkept => rw [emission_of_isAssembled h, dropTokens_of_kept hkept]
  | exported hkind htypes hassigns hclause hsource =>
    rw [emission_of_construct hkind (by decide), constructEmission, hkind]
    show exportStatement context node _ = _
    unfold exportStatement keptExport
    rw [htypes, hassigns, hclause, hsource]
    rfl

/-- **A node that keeps all its children** is its text in which their codes have come in place of their
texts. -/
theorem IsWhole.run_iff (h : IsWhole context node) {before after : State} {code : Code} :
    (emit context node).run before = .ok (code, after) ↔
      ∃ codes, Chain context before node.children codes after ∧
        code = weave (Node.gaps context.source node.stop node.start node.children) codes := by
  rw [h.emit_eq_emitStretch]
  exact run_emitStretch_iff

/-! ## §3. Scripts -/

/-- The kinds of nodes that are no part of a plain script. -/
def loweredKinds : List String :=
  removedKinds ++ wrapperKinds ++ elementKinds
    ++ ["type_assertion", "enum_declaration", "internal_module", "module", "import_statement"]

/-- The node is plain: no type, element, enumeration, namespace or import, no export that has to be
linked or exports types, no call of `import` with a literal, no constructor that assigns properties, and
nothing that loses a token. -/
structure IsPlain (context : Context) (node : Node) : Prop where
  kind : node.kind ∉ loweredKinds
  modifier : node.isToken "readonly" = false
  exports : node.kind = "export_statement" → exportsTypes node = false ∧ node.hasToken "=" = false ∧
    node.namedChildren.find? (·.kind == "export_clause") = none ∧ node.childByField? "source" = none
  imports : node.kind = "call_expression" → importedLiteral? node = none
  assigns : node.kind = "method_definition" → assignsProperties context node = false
  declared : node.kind = "public_field_definition" →
    node.hasToken "declare" = false ∧ node.hasToken "abstract" = false
  tokens : ∀ child ∈ node.children, child.isNamed = false → child.kind ∉ droppedTokens node.kind

/-- A plain node keeps all its children. -/
theorem IsPlain.isWhole (h : IsPlain context node) : IsWhole context node := by
  have hkind := h.kind
  unfold loweredKinds at hkind
  simp only [List.mem_append, List.mem_cons, List.not_mem_nil, or_false, not_or] at hkind
  obtain ⟨⟨⟨hremoved, hwraps⟩, helement⟩, hassertion, henum, hnamespace, hmodule, himport⟩ := hkind
  by_cases hexport : node.kind = "export_statement"
  · obtain ⟨htypes, hassigns, hclause, hsource⟩ := h.exports hexport
    exact .exported hexport htypes hassigns hclause hsource
  · refine .assembled ⟨?_, hwraps, ?_, h.imports, h.assigns⟩ h.tokens
    · have hfield : (node.kind == "public_field_definition"
          && (node.hasToken "declare" || node.hasToken "abstract")) = false := by
        by_cases hkind : node.kind = "public_field_definition"
        · obtain ⟨hdeclare, habstract⟩ := h.declared hkind
          rw [hdeclare, habstract]
          exact Bool.and_false _
        · rw [beq_false_of_ne hkind, Bool.false_and]
      unfold leavesNothing
      rw [h.modifier, hfield, beq_false_of_ne himport, beq_false_of_ne hexport]
      simpa using hremoved
    · unfold remadeKinds
      simp only [List.mem_append, List.mem_cons, List.not_mem_nil, or_false, not_or]
      exact ⟨⟨himport, hexport, hassertion, hnamespace, hmodule, henum⟩, helement⟩

/-- **A tree of plain nodes is copied.** -/
theorem emit_of_isPlain (hplaced : ∀ other ∈ node.preorder, other.InPlace context.source)
    (hplain : ∀ other ∈ node.preorder, IsPlain context other) :
    emit context node = return Code.ofText (context.text node) := by
  induction node using Node.forall_of_children with
  | h node ih =>
    have hplace := hplaced node (Node.mem_preorder_self node)
    have hbelow {child : Node} (hchild : child ∈ node.children) : child.preorder ⊆ node.preorder :=
      fun _ => Node.mem_preorder_of_mem_children hchild
    rw [(hplain node (Node.mem_preorder_self node)).isWhole.emit_eq_emitStretch]
    refine emitStretch_of_copied hplace.start_isBoundary hplace.stop_isBoundary hplace.inRow
      (fun child hchild => hplaced child (hbelow hchild (Node.mem_preorder_self child))) fun child hchild => ?_
    exact ih child hchild (fun other hother => hplaced other (hbelow hchild hother))
      fun other hother => hplain other (hbelow hchild hother)

/-! ## §4. Lowered scripts -/

/-- A text without NUL characters is finished as it stands. -/
theorem Code.finish_ofText (specifiers : List Text) {text : String} (h : NulFree text) :
    Code.finish specifiers (Code.ofText text) = .ok (text, []) := by
  have hclean : (Code.ofText text).IsClean 0 := by
    intro piece hpiece
    obtain ⟨c, hc, rfl⟩ := List.mem_map.mp hpiece
    rintro rfl
    exact h hc
  have hfill (position : Nat) (cs : List Char) :
      Code.fillFrom specifiers position ((cs.map Piece.char).map Piece.mark) = .ok (cs, []) := by
    induction cs generalizing position with
    | nil => rfl
    | cons c cs ih =>
      show Code.fillFrom specifiers position (.char c :: (cs.map Piece.char).map Piece.mark) = _
      rw [Code.fillFrom, ih]
      rfl
  unfold Code.finish Code.fill
  rw [Code.scan_marked hclean fun number hnumber => absurd hnumber (Nat.not_lt_zero number), Code.ofText, hfill]
  show Except.ok (String.ofList text.toList, []) = _
  rw [String.ofList_toList]

section Lower

variable {parser : Parser} {dialect : Dialect} {options : Options} {source : String}

/-- **A plain script is copied, and so is the source of every node around its children.**  A source
without NUL whose tree has no fault and plain nodes only is lowered to the text of the root, without
imports and sites, unless too many nodes lie inside one another.  In any tree a node that keeps all its
children is emitted as its own text, with the codes of the children in place of their texts. -/
theorem lower_script (hplaced : ∀ node ∈ (parser dialect source).preorder, node.InPlace source) :
    (NulFree source → (parser dialect source).hasFault = false →
      (∀ node ∈ (parser dialect source).preorder, IsPlain ⟨source, options⟩ node) →
      lower parser dialect options source =
        if isShallow (parser dialect source) then .ok ⟨(parser dialect source).text source, [], [], false⟩
        else .error .tooDeep) ∧
    ∀ node ∈ (parser dialect source).preorder, IsWhole ⟨source, options⟩ node →
      Code.ofText (node.text source)
          = weave (Node.gaps source node.stop node.start node.children)
              (node.children.map fun child => Code.ofText (child.text source)) ∧
        ∀ before after code, (emit ⟨source, options⟩ node).run before = .ok (code, after) ↔
          ∃ codes, Chain ⟨source, options⟩ before node.children codes after ∧
            code = weave (Node.gaps source node.stop node.start node.children) codes := by
  refine ⟨fun hnul hfault hplain => ?_, fun node hnode hwhole => ⟨?_, fun _ _ _ => hwhole.run_iff⟩⟩
  · have hemit := @emit_of_isPlain ⟨source, options⟩ _ hplaced hplain
    have hrun : (emitModule ⟨source, options⟩ (parser dialect source)).run {}
        = .ok ((Code.ofText ((parser dialect source).text source), []), {}) := by
      unfold emitModule
      rw [hemit]
      rfl
    have htree : lowerTree options source (parser dialect source)
        = .ok ⟨(parser dialect source).text source, [], [], false⟩ := by
      unfold lowerTree
      rw [hrun]
      show ((Code.finish [] _).mapError Failure.ofFill >>= _) = _
      rw [Code.finish_ofText [] (hnul.text _)]
      rfl
    unfold lower
    rw [String.contains_char_eq, decide_eq_false hnul, if_neg Bool.false_ne_true]
    dsimp only
    rw [hfault, if_neg Bool.false_ne_true, htree]
  · have hplace := hplaced node hnode
    exact @ofText_slice_eq_weave ⟨source, options⟩ _ _ _ hplace.start_isBoundary hplace.stop_isBoundary
      hplace.inRow fun child hchild => hplaced child (Node.mem_preorder_of_child hnode hchild)

end Lower

/-! ## §5. Calls of calls -/

/-- A node of a kind without a rule of its own is plain. -/
theorem isPlain_of_unruled (kind : String) (hkind : node.kind = kind)
    (hplain : kind ∉ loweredKinds
      ++ ["readonly", "export_statement", "method_definition", "public_field_definition"])
    (htokens : droppedTokens kind = []) (himports : kind = "call_expression" → importedLiteral? node = none) :
    IsPlain context node := by
  rw [List.mem_append, not_or] at hplain
  obtain ⟨hlowered, hruled⟩ := hplain
  simp only [List.mem_cons, List.not_mem_nil, or_false, not_or] at hruled
  obtain ⟨hreadonly, hexport, hmethod, hfield⟩ := hruled
  subst hkind
  refine ⟨hlowered, ?_, fun h => absurd h hexport, himports, fun h => absurd h hmethod,
    fun h => absurd h hfield, fun child _ _ => ?_⟩
  · unfold Node.isToken
    rw [beq_false_of_ne hreadonly, Bool.and_false]
  · rw [htokens]
    exact List.not_mem_nil

/-- In a source of characters of one byte every offset is a boundary. -/
theorem isBoundary_of_narrow {source : String} (h : ∀ c ∈ source.toList, c.utf8Size = 1) {offset : Nat}
    (hoffset : offset ≤ source.toList.length) : Node.IsBoundary source offset := by
  have hlength {cs : List Char} (hcs : ∀ c ∈ cs, c.utf8Size = 1) : String.utf8Len cs = cs.length := by
    induction cs with
    | nil => rfl
    | cons c cs ih =>
      obtain ⟨hc, hcs⟩ := List.forall_mem_cons.mp hcs
      rw [String.utf8Len_cons, ih hcs, hc, List.length_cons]
  refine Node.isBoundary_iff.mpr (List.mem_map.mpr ⟨source.toList.take offset, ?_, ?_⟩)
  · exact (List.mem_inits _ _).mpr (List.take_prefix _ _)
  · rw [hlength fun c hc => h c (List.mem_of_mem_take hc), List.length_take, Nat.min_eq_left hoffset]

/-- The arguments of the last of `n + 1` calls around one another: none. -/
def towerArguments (n : Nat) : Node :=
  ⟨"arguments", true, false, 2 * n + 1, 2 * n + 3, some "arguments",
    [tokenNode "(" (2 * n + 1) (2 * n + 2), tokenNode ")" (2 * n + 2) (2 * n + 3)]⟩

/-- A function that is called, and its result as well, and so on. -/
def callTower (field? : Option String) : Nat → Node
  | 0 => ⟨"identifier", true, false, 0, 1, field?, []⟩
  | n + 1 => ⟨"call_expression", true, false, 0, 2 * n + 3, field?,
      [callTower (some "function") n, towerArguments n]⟩

/-- A program of one statement, which is a tower of calls. -/
def towerProgram (n : Nat) : Node :=
  ⟨"program", true, false, 0, 2 * n + 1, none,
    [⟨"expression_statement", true, false, 0, 2 * n + 1, none, [callTower none n]⟩]⟩

/-- The source of a tower: `f()()…`. -/
def towerSource (n : Nat) : String :=
  String.ofList ('f' :: (List.replicate n ['(', ')']).flatten)

section Towers

variable {P : Node → Prop} {n : Nat}

theorem callTower_start (field? : Option String) (n : Nat) : (callTower field? n).start = 0 := by
  cases n <;> rfl

theorem callTower_stop (field? : Option String) (n : Nat) : (callTower field? n).stop = 2 * n + 1 := by
  cases n <;> rfl

/-- What holds of names, calls, and lists of arguments holds of all nodes of a tower. -/
theorem forall_mem_callTower (hname : ∀ field?, P (callTower field? 0))
    (hcall : ∀ field?, ∀ m < n, P (callTower field? (m + 1)))
    (harguments : ∀ m < n, ∀ node ∈ (towerArguments m).preorder, P node)
    (field? : Option String) : ∀ node ∈ (callTower field? n).preorder, P node := by
  induction n generalizing field? with
  | zero => exact List.forall_mem_singleton.mpr (hname field?)
  | succ n ih =>
    rw [Node.preorder_eq]
    refine List.forall_mem_cons.mpr ⟨hcall field? n (Nat.lt_succ_self n), ?_⟩
    show ∀ node ∈ (callTower (some "function") n).preorder ++ ((towerArguments n).preorder ++ []), P node
    rw [List.append_nil]
    exact List.forall_mem_append.mpr ⟨ih (fun field? m hm => hcall field? m (by omega))
      (fun m hm => harguments m (by omega)) _, harguments n (Nat.lt_succ_self n)⟩

/-- What holds of the nodes of a tower, and of a program and a statement, holds of a program with it. -/
theorem forall_mem_towerProgram (hprogram : P (towerProgram n))
    (hstatement : P ⟨"expression_statement", true, false, 0, 2 * n + 1, none, [callTower none n]⟩)
    (htower : ∀ node ∈ (callTower none n).preorder, P node) :
    ∀ node ∈ (towerProgram n).preorder, P node := by
  have hbelow : (towerProgram n).preorder = towerProgram n
      :: ⟨"expression_statement", true, false, 0, 2 * n + 1, none, [callTower none n]⟩
      :: (callTower none n).preorder := by
    rw [Node.preorder_eq]
    show _ :: ((Node.preorder _) ++ []) = _
    rw [List.append_nil, Node.preorder_eq]
    show _ :: _ :: ((callTower none n).preorder ++ []) = _
    rw [List.append_nil]
  rw [hbelow]
  exact List.forall_mem_cons.mpr ⟨hprogram, List.forall_mem_cons.mpr ⟨hstatement, htower⟩⟩

theorem mem_towerSource {c : Char} (h : c ∈ (towerSource n).toList) : c ∈ ['f', '(', ')'] := by
  rw [towerSource, String.toList_ofList] at h
  rcases List.mem_cons.mp h with rfl | h
  · exact List.mem_cons_self
  · obtain ⟨pair, hpair, hc⟩ := List.mem_flatten.mp h
    rw [List.eq_of_mem_replicate hpair] at hc
    exact List.mem_cons_of_mem _ hc

theorem inPlace_towerProgram (n : Nat) :
    ∀ node ∈ (towerProgram n).preorder, node.InPlace (towerSource n) := by
  have hboundary {offset : Nat} (hoffset : offset ≤ 2 * n + 1) : Node.IsBoundary (towerSource n) offset := by
    refine isBoundary_of_narrow (fun c hc => ?_) ?_
    · have hmem := mem_towerSource hc
      simp only [List.mem_cons, List.not_mem_nil, or_false] at hmem
      rcases hmem with rfl | rfl | rfl <;> rfl
    · rw [towerSource, String.toList_ofList, List.length_cons, List.length_flatten, List.map_replicate,
        List.sum_replicate_nat]
      exact Nat.mul_comm 2 n ▸ hoffset
  refine forall_mem_towerProgram ⟨hboundary (Nat.zero_le _), hboundary (Nat.le_refl _), ?_⟩
    ⟨hboundary (Nat.zero_le _), hboundary (Nat.le_refl _), ?_⟩
    (forall_mem_callTower
      (fun _ => ⟨hboundary (Nat.zero_le _), hboundary (Nat.le_add_left 1 _), Nat.zero_le 1⟩) ?_ ?_ none)
  · exact ⟨Nat.le_refl 0, Nat.zero_le _, Nat.le_refl _⟩
  · refine ⟨?_, ?_, ?_⟩
    · rw [callTower_start]
    · rw [callTower_start]
      exact Nat.zero_le _
    · rw [callTower_stop]
      exact Nat.le_refl _
  · intro field? m hm
    refine ⟨hboundary (Nat.zero_le _), hboundary (by show 2 * m + 3 ≤ _; omega), ?_⟩
    show 0 ≤ (callTower _ m).start ∧ (callTower _ m).start ≤ (callTower _ m).stop
      ∧ (callTower _ m).stop ≤ 2 * m + 1 ∧ 2 * m + 1 ≤ 2 * m + 3 ∧ 2 * m + 3 ≤ 2 * m + 3
    rw [callTower_start, callTower_stop]
    omega
  · intro m hm node hnode
    rw [show Node.preorder _ = [_, tokenNode "(" _ _, tokenNode ")" _ _] from rfl] at hnode
    simp only [List.mem_cons, List.not_mem_nil, or_false] at hnode
    rcases hnode with rfl | rfl | rfl
    · refine ⟨hboundary (by show 2 * m + 1 ≤ _; omega), hboundary (by show 2 * m + 3 ≤ _; omega), ?_⟩
      show 2 * m + 1 ≤ 2 * m + 1 ∧ 2 * m + 1 ≤ 2 * m + 2 ∧ 2 * m + 2 ≤ 2 * m + 2
        ∧ 2 * m + 2 ≤ 2 * m + 3 ∧ 2 * m + 3 ≤ 2 * m + 3
      omega
    · exact ⟨hboundary (by show 2 * m + 1 ≤ _; omega), hboundary (by show 2 * m + 2 ≤ _; omega),
        Nat.le_succ (2 * m + 1)⟩
    · exact ⟨hboundary (by show 2 * m + 2 ≤ _; omega), hboundary (by show 2 * m + 3 ≤ _; omega),
        Nat.le_succ (2 * m + 2)⟩

/-- The kinds of the nodes of a tower, and of a program with it, that are no calls. -/
def towerKinds : List String :=
  ["program", "expression_statement", "identifier", "arguments", "(", ")"]

theorem isPlain_towerProgram (context : Context) (n : Nat) :
    ∀ node ∈ (towerProgram n).preorder, IsPlain context node := by
  have hother {node : Node} (hkind : node.kind ∈ towerKinds) : IsPlain context node := by
    have hkinds : ∀ kind ∈ towerKinds, kind ∉ loweredKinds
          ++ ["readonly", "export_statement", "method_definition", "public_field_definition"] ∧
        droppedTokens kind = [] ∧ kind ≠ "call_expression" := by decide
    obtain ⟨hplain, htokens, hcall⟩ := hkinds node.kind hkind
    exact isPlain_of_unruled node.kind rfl hplain htokens fun h => absurd h hcall
  refine forall_mem_towerProgram (hother (List.mem_of_getElem? (i := 0) rfl))
    (hother (List.mem_of_getElem? (i := 1) rfl))
    (forall_mem_callTower (fun _ => hother (List.mem_of_getElem? (i := 2) rfl)) (fun field? m _ => ?_)
      (fun m _ node hnode => ?_) none)
  · -- what is called is a name or a call, but not `import`
    refine isPlain_of_unruled "call_expression" rfl (by decide) rfl fun _ => ?_
    cases m <;> rfl
  · rw [show Node.preorder _ = [_, tokenNode "(" _ _, tokenNode ")" _ _] from rfl] at hnode
    simp only [List.mem_cons, List.not_mem_nil, or_false] at hnode
    rcases hnode with rfl | rfl | rfl
    · exact hother (List.mem_of_getElem? (i := 3) rfl)
    · exact hother (List.mem_of_getElem? (i := 4) rfl)
    · exact hother (List.mem_of_getElem? (i := 5) rfl)

theorem hasFault_towerProgram (n : Nat) : (towerProgram n).hasFault = false := by
  refine Node.hasFault_eq_false (forall_mem_towerProgram rfl rfl (forall_mem_callTower (fun _ => rfl)
    (fun _ _ _ => rfl) (fun m _ node hnode => ?_) none))
  rw [show Node.preorder _ = [_, tokenNode "(" _ _, tokenNode ")" _ _] from rfl] at hnode
  simp only [List.mem_cons, List.not_mem_nil, or_false] at hnode
  rcases hnode with rfl | rfl | rfl <;> rfl

theorem nulFree_towerSource (n : Nat) : NulFree (towerSource n) :=
  fun hmem => absurd (mem_towerSource hmem) (by decide)

/-- Every call of a tower stays open around the calls in it. -/
theorem le_levels_callTower (field? : Option String) (n : Nat) : 3 * n ≤ levels (callTower field? n) := by
  induction n generalizing field? with
  | zero => exact Nat.zero_le _
  | succ n ih =>
    have hfunction := ih (some "function")
    rw [levels_eq]
    show _ ≤ max 3 (3 + max (max 0 (levels (callTower (some "function") n))) _)
    omega

theorem le_levels_towerProgram (n : Nat) : 3 * n + 4 ≤ levels (towerProgram n) := by
  have htower := le_levels_callTower none n
  rw [levels_eq]
  show _ ≤ max 3 (2 + max 0 (levels _))
  rw [levels_eq]
  show _ ≤ max 3 (2 + max 0 (max 3 (2 + max 0 (levels (callTower none n)))))
  omega

end Towers

/-- The call `f()` is copied, and the arguments stand in it between their gaps. -/
theorem lower_script_call :
    lower (fun _ _ => towerProgram 1) .typescript {} "f()" = .ok ⟨"f()", [], [], false⟩ ∧
      IsWhole ⟨"f()", {}⟩ (callTower none 1) ∧
      ∀ before after code, (emit ⟨"f()", {}⟩ (callTower none 1)).run before = .ok (code, after) ↔
        ∃ codes, Chain ⟨"f()", {}⟩ before (callTower none 1).children codes after ∧
          code = weave ["", "", ""] codes := by
  have hsource : towerSource 1 = "f()" := by decide
  have hplaced := inPlace_towerProgram 1
  have hplain := isPlain_towerProgram ⟨"f()", {}⟩ 1
  rw [hsource] at hplaced
  have hcall : callTower none 1 ∈ (towerProgram 1).preorder := List.mem_of_getElem? (i := 2) rfl
  have hwhole := (hplain _ hcall).isWhole
  obtain ⟨hscript, hnodes⟩ := @lower_script (fun _ _ => towerProgram 1) .typescript {} "f()" hplaced
  refine ⟨(hscript (by decide) (hasFault_towerProgram 1) hplain).trans ?_, hwhole, (hnodes _ hcall hwhole).2⟩
  decide +kernel

/-- A plain script of 340 calls around one another is not lowered, and neither is one with a NUL. -/
theorem lower_script_towering :
    ((∀ node ∈ (towerProgram 340).preorder, node.InPlace (towerSource 340)) ∧
      NulFree (towerSource 340) ∧ (towerProgram 340).hasFault = false ∧
      (∀ node ∈ (towerProgram 340).preorder, IsPlain ⟨towerSource 340, {}⟩ node) ∧
      lower (fun _ _ => towerProgram 340) .typescript {} (towerSource 340) = .error .tooDeep) ∧
    ∀ parser : Parser, lower parser .typescript {} "//\x00" = .error (.rejected ⟨.nulCharacter, 1⟩) := by
  have hplaced := inPlace_towerProgram 340
  have hplain := isPlain_towerProgram ⟨towerSource 340, {}⟩ 340
  have hnul := nulFree_towerSource 340
  have hfault := hasFault_towerProgram 340
  refine ⟨⟨hplaced, hnul, hfault, hplain, ?_⟩, fun parser => ?_⟩
  · have hlevels := le_levels_towerProgram 340
    have hdeep : isShallow (towerProgram 340) = false :=
      decide_eq_false fun hle => absurd (Nat.le_trans hlevels hle) (by decide)
    unfold lower
    rw [String.contains_char_eq, decide_eq_false hnul, if_neg Bool.false_ne_true]
    dsimp only
    rw [hfault, if_neg Bool.false_ne_true, hdeep, if_neg Bool.false_ne_true]
  · unfold lower
    rw [String.contains_char_eq, if_pos (by decide)]

end LivePreview.Lowering
