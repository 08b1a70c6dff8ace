/-
  LivePreview.Proofs.Lowering.Types.Module
  ────────────────────────────────────────
  **Types do not interfere with what a source is lowered to.**

  The drafts of alike nodes are alike (`alike_draft`), since every rule makes steps that
  agree of alike drafts (`agree_constructEmission`).  So two sources whose trees have one
  outline are lowered to the same module, or rejected with the same message, whatever
  their types are (`lower_of_outline_eq`).
-/
import LivePreview.Proofs.Lowering.Module
import LivePreview.Proofs.Lowering.Types.Jsx

namespace LivePreview.Lowering

open LivePreview.Syntax (Node)

variable {context other : Context} {a b : Node} {drafts drafts' : List Draft}

/-! ## §1. The rule for a node -/

theorem agree_emitDemanded {found found' : Option Draft}
    (h : Option.Rel (Draft.Alike context other) found found') :
    Agree (emitDemanded found) (emitDemanded found') :=
  agree_demand h fun _ _ _ _ hdraft => hdraft.emission

theorem agree_fieldDefinition (h : Draft.Matching context other a b drafts drafts') :
    Agree (fieldDefinition context a drafts) (fieldDefinition other b drafts') := by
  unfold fieldDefinition
  rw [h.alike.hasToken_eq h.isPlain, h.alike.hasToken_eq h.isPlain]
  split
  · exact .refl _
  · exact h.agree_dropTokens ["?", "!"]

theorem agree_constructEmission (hoptions : context.options = other.options)
    (h : Draft.Matching context other a b drafts drafts') :
    Agree (constructEmission context a drafts) (constructEmission other b drafts') := by
  unfold constructEmission
  rw [← h.alike.kind_eq]
  split
  · next hkind => exact agree_importStatement h hkind
  · next hkind => exact agree_exportStatement h hkind
  · next hkind => exact agree_callExpression h hkind
  · exact agree_emitDemanded (rel_getLast? (Draft.alike_named h.drafts))
  · exact h.agree_dropTokens ["?"]
  · exact h.agree_dropTokens ["!"]
  · exact agree_fieldDefinition h
  · exact h.agree_dropTokens ["abstract"]
  · exact agree_reject
  · exact agree_reject
  · next hkind => exact agree_methodDefinition h hkind
  · next hkind => exact agree_enumDeclaration h hkind
  · split
    · next hkind => exact agree_jsxElement hoptions h hkind
    · exact h.assembling.agree

/-- The rule for a plain node. -/
theorem agree_emission (hoptions : context.options = other.options)
    (h : Draft.Matching context other a b drafts drafts') :
    Agree (emission context a drafts) (emission other b drafts') := by
  unfold emission
  rw [← h.alike.kind_eq, ← h.alike.isToken_eq]
  split
  · exact .refl _
  · split
    · exact agree_emitDemanded (rel_head? (Draft.alike_named h.drafts))
    · split
      · exact .refl _
      · exact agree_constructEmission hoptions h

/-! ## §2. Trees -/

theorem emission_of_isErased (h : isErased a = true) : emission context a drafts = pure [] := by
  unfold emission
  unfold isErased at h
  rw [if_pos h]

/-- Of a node with a type, its expression is emitted. -/
theorem emission_of_isTyped (h : isTyped a = true) :
    emission context a (a.children.map (draft context))
      = emitDemanded ((kept? a).map (draft context)) := by
  have hnamed : Draft.named (a.children.map (draft context)) = a.namedChildren.map (draft context) :=
    named_map_draft context a.children
  have herased := isErased_of_isTyped h
  unfold isErased at herased
  unfold emission kept? keptAmong
  rw [hnamed, herased, if_neg Bool.false_ne_true]
  rcases wrapper_of_isTyped h with ⟨hwrapper, hassertion⟩ | ⟨hwrapper, hassertion⟩
  · -- an ascription is a wrapper
    rw [if_pos hwrapper, hassertion, if_neg Bool.false_ne_true, List.head?_map]
  · -- an assertion has a rule of its own
    have hkind := beq_iff_eq.mp hassertion
    have htoken : a.isToken "readonly" = false := by
      unfold Node.isToken
      rw [hkind, Bool.and_eq_false_iff]
      exact .inr (by decide)
    rw [hwrapper, if_neg Bool.false_ne_true, htoken, if_neg Bool.false_ne_true, if_pos hassertion]
    unfold constructEmission
    rw [hkind, hnamed, ← List.getLast?_map]
    rfl

/-- **The drafts of alike nodes are alike.** -/
theorem alike_draft (hoptions : context.options = other.options)
    (h : Alike context.source other.source a b) :
    Draft.Alike context other (draft context a) (draft other b) := by
  induction a using Syntax.Node.forall_of_children generalizing b with
  | h a ih =>
    have hnodes : ∀ (context : Context) (node : Node),
        (draft context node).children.map Draft.node = (draft context node).node.children := by
      intro context node
      rw [children_draft, node_draft, map_node_draft]
    have hchildren : isPlain a = true → List.Forall₂ (Draft.Alike context other)
        (a.children.map (draft context)) (b.children.map (draft other)) := by
      intro hplain
      rw [List.forall₂_map_left_iff, List.forall₂_map_right_iff]
      exact (forall₂_zip (h.children hplain)).imp fun child child' ⟨hmem, hchild⟩ =>
        ih child (List.of_mem_zip hmem).1 hchild
    refine .intro (by rwa [node_draft, node_draft]) (hnodes context a) (hnodes other b) ?_ ?_
    · rw [node_draft, children_draft, children_draft]
      exact hchildren
    · rw [draft_eq context a, draft_eq other b]
      rcases isErased_or_isTyped_or_isPlain a with herased | htyped | hplain
      · -- a type leaves no code on either side, whatever it is
        rw [emission_of_isErased herased, emission_of_isErased (h.isErased_eq ▸ herased)]
        exact .refl _
      · -- only the expressions are emitted, and they are alike
        rw [emission_of_isTyped htyped, emission_of_isTyped (h.isTyped_eq ▸ htyped)]
        rcases rel_cases (h.kept htyped) with ⟨ha, hb⟩ | ⟨c, d, ha, hb, hcd⟩
        · rw [ha, hb, Option.map_none, Option.map_none]
          exact .refl _
        · rw [ha, hb]
          exact agree_emitDemanded (.some (ih c (mem_of_kept? ha) hcd))
      · have hmatching : Draft.Matching context other a b (a.children.map (draft context))
            (b.children.map (draft other)) :=
          ⟨h, hplain, map_node_draft context _, map_node_draft other _, hchildren hplain⟩
        exact agree_emission hoptions hmatching

theorem levels_of_isTyped (h : isTyped a = true) :
    levels a = (if a.kind == "type_assertion" then 2 else 1) + ((kept? a).map levels).getD 0 := by
  have herased := isErased_of_isTyped h
  unfold isErased at herased
  rw [levels_eq]
  unfold levelsOver kept?
  rw [← keptAmong_map, namedResults_map, herased, if_neg Bool.false_ne_true, List.headD_eq_head?_getD,
    List.getLastD_eq_getLast?]
  unfold keptAmong
  rcases wrapper_of_isTyped h with ⟨hwrapper, hassertion⟩ | ⟨hwrapper, hassertion⟩
  · rw [if_pos hwrapper, hassertion, if_neg Bool.false_ne_true, if_neg Bool.false_ne_true]
  · rw [hwrapper, if_neg Bool.false_ne_true, if_pos hassertion, if_pos hassertion, if_pos hassertion]

/-- Alike nodes open the same levels. -/
theorem levels_eq_of_alike {source other : String} (h : Alike source other a b) : levels a = levels b := by
  induction a using Syntax.Node.forall_of_children generalizing b with
  | h a ih =>
    rcases isErased_or_isTyped_or_isPlain a with herased | htyped | hplain
    · have herased' : isErased b = true := h.isErased_eq ▸ herased
      unfold isErased at herased herased'
      rw [levels_eq, levels_eq]
      unfold levelsOver
      rw [if_pos herased, if_pos herased']
    · rw [levels_of_isTyped htyped, levels_of_isTyped (h.isTyped_eq ▸ htyped), h.kind_eq]
      rcases rel_cases (h.kept htyped) with ⟨ha, hb⟩ | ⟨c, d, ha, hb, hcd⟩
      · rw [ha, hb]
      · rw [ha, hb, Option.map_some, Option.map_some, ih c (mem_of_kept? ha) hcd]
    · -- the levels are counted over all children, or over the constructs among them
      have hlevels : List.Forall₂ (fun child child' => child.isNamed = child'.isNamed ∧
          levels child = levels child') a.children b.children :=
        (forall₂_zip (h.children hplain)).imp fun child _ ⟨hmem, hchild⟩ =>
          ⟨hchild.isNamed_eq, ih child (List.of_mem_zip hmem).1 hchild⟩
      have hchildren : a.children.map levels = b.children.map levels :=
        map_eq_of_forall₂ hlevels fun _ _ hchild => hchild.2
      have hnamed : a.namedChildren.map levels = b.namedChildren.map levels :=
        map_eq_of_forall₂ (forall₂_filter hlevels fun _ _ hchild => hchild.1) fun _ _ hchild => hchild.2
      rw [levels_eq, levels_eq]
      unfold levelsOver
      rw [namedResults_map, namedResults_map, hnamed, hchildren, h.kind_eq]

/-! ## §3. Modules -/

/-- The source has been parsed into the tree: it has no NUL, without which it is not read at all,
and the tree has no faults and is regular. -/
structure IsParsed (source : String) (root : Node) : Prop where
  nulFree : source.contains '\x00' = false
  hasFault_eq_false : root.hasFault = false
  regular : ∀ node ∈ root.preorder, IsRegular source node

/-- The source is rejected with a message. -/
def RejectedWith (message : String) (result : Except Failure LoweredModule) : Prop :=
  ∃ rejection, result = .error (.rejected rejection) ∧ rejection.cause.message = message

theorem agree_emitModule (hoptions : context.options = other.options)
    (h : Alike context.source other.source a b) :
    Agree (emitModule context a) (emitModule other b) := by
  unfold emitModule
  -- the preamble depends on the state and on the options only
  refine (alike_draft hoptions h).emission.bind fun body => ?_
  rw [hoptions]
  exact .refl _

/-- Alike trees are lowered to the same module, or fail for the same cause. -/
theorem lowerTree_eq {options : Options} {first second : String} (h : Alike first second a b) :
    (lowerTree options first a).mapError Failure.unlined
      = (lowerTree options second b).mapError Failure.unlined := by
  have hrun : Agree (emitModule ⟨first, options⟩ a) (emitModule ⟨second, options⟩ b) :=
    agree_emitModule rfl h
  exact Result.mapError_bind_congr (hrun {}) fun _ => rfl

/-- A rejection keeps its message without its line. -/
theorem rejectedWith_iff {message : String} {result : Except Failure LoweredModule} :
    RejectedWith message result ↔
      ∃ cause, result.mapError Failure.unlined = .error (.rejected ⟨cause, 0⟩) ∧ cause.message = message := by
  constructor
  · rintro ⟨rejection, rfl, hmessage⟩
    exact ⟨rejection.cause, rfl, hmessage⟩
  · rintro ⟨cause, hresult, hmessage⟩
    cases result with
    | ok lowered => cases hresult
    | error failure =>
      cases failure with
      | rejected rejection =>
        obtain ⟨found, line⟩ := rejection
        cases hresult
        exact ⟨⟨found, line⟩, rfl, hmessage⟩
      | _ => cases hresult

section Lower

variable {parser parser' : Parser} {dialect dialect' : Dialect} {options : Options} {first second : String}

/-- A source that has been parsed is lowered as its tree is. -/
theorem IsParsed.lower_eq (h : IsParsed first (parser dialect first)) :
    lower parser dialect options first
      = if isShallow (parser dialect first) then lowerTree options first (parser dialect first)
        else .error .tooDeep := by
  unfold lower
  dsimp only
  rw [h.nulFree, if_neg Bool.false_ne_true, h.hasFault_eq_false, if_neg Bool.false_ne_true]

/-- Trees with one outline are alike if they are regular and copy no types. -/
theorem IsParsed.alike (h : IsParsed first a) (h' : IsParsed second b)
    (hwhole : ∀ node ∈ visited a, CopiesNoTypes node) (hwhole' : ∀ node ∈ visited b, CopiesNoTypes node)
    (houtline : outline first a = outline second b) : Alike first second a b :=
  ⟨houtline, fun node hmem => ⟨h.regular node (mem_preorder_of_mem_visited hmem), hwhole node hmem⟩,
    fun node hmem => ⟨h'.regular node (mem_preorder_of_mem_visited hmem), hwhole' node hmem⟩⟩

/-- Two sources whose trees have the same outline are lowered to the same module: the same code,
imports, sites and use of elements.  Neither is rejected unless the other is, with the same
message. -/
theorem lower_of_outline_eq (h : IsParsed first (parser dialect first))
    (h' : IsParsed second (parser' dialect' second))
    (hwhole : ∀ node ∈ visited (parser dialect first), CopiesNoTypes node)
    (hwhole' : ∀ node ∈ visited (parser' dialect' second), CopiesNoTypes node)
    (houtline : outline first (parser dialect first) = outline second (parser' dialect' second)) :
    (∀ lowered, lower parser dialect options first = .ok lowered ↔
      lower parser' dialect' options second = .ok lowered) ∧
    ∀ message, RejectedWith message (lower parser dialect options first) ↔
      RejectedWith message (lower parser' dialect' options second) := by
  have halike := h.alike h' hwhole hwhole' houtline
  have hsame : (lower parser dialect options first).mapError Failure.unlined
      = (lower parser' dialect' options second).mapError Failure.unlined := by
    rw [h.lower_eq, h'.lower_eq]
    unfold isShallow
    rw [levels_eq_of_alike halike]
    split
    · exact lowerTree_eq halike
    · rfl
  constructor
  · intro lowered
    rw [← Result.mapError_eq_ok_iff, hsame, Result.mapError_eq_ok_iff]
  · intro message
    rw [rejectedWith_iff, rejectedWith_iff, hsame]

end Lower

/-- The tree of a declaration `let x: … = y as …;`, with the types in it, whose ends are given. -/
def ascribedTree (declared target : List Node) (declaredStop targetStop : Nat) : Node :=
  ⟨"program", true, false, 0, targetStop + 1, none,
    [⟨"lexical_declaration", true, false, 0, targetStop + 1, none,
      [⟨"let", false, false, 0, 3, some "kind", []⟩,
        ⟨"variable_declarator", true, false, 4, targetStop, none,
          [⟨"identifier", true, false, 4, 5, some "name", []⟩,
            ⟨"type_annotation", true, false, 5, declaredStop, some "type", declared⟩,
            ⟨"=", false, false, declaredStop + 1, declaredStop + 2, none, []⟩,
            ⟨"as_expression", true, false, declaredStop + 3, targetStop, some "value",
              [⟨"identifier", true, false, declaredStop + 3, declaredStop + 4, none, []⟩,
                ⟨"as", false, false, declaredStop + 5, declaredStop + 7, none, []⟩] ++ target⟩]⟩,
        ⟨";", false, false, targetStop, targetStop + 1, none, []⟩]⟩]⟩

/-- The tree of `let x: number = y as A;`. -/
def numberTree : Node :=
  ascribedTree
    [⟨":", false, false, 5, 6, none, []⟩, ⟨"predefined_type", true, false, 7, 13, none, []⟩]
    [⟨"type_identifier", true, false, 21, 22, none, []⟩] 13 22

/-- The tree of `let x: B[] = y as any;`. -/
def arrayTree : Node :=
  ascribedTree
    [⟨":", false, false, 5, 6, none, []⟩,
      ⟨"array_type", true, false, 7, 10, none,
        [⟨"type_identifier", true, false, 7, 8, none, []⟩, ⟨"[", false, false, 8, 9, none, []⟩,
          ⟨"]", false, false, 9, 10, none, []⟩]⟩]
    [⟨"predefined_type", true, false, 18, 21, none, []⟩] 10 21

/-- What is left of both trees without their types. -/
def ascribedOutline : Outline :=
  .plain "program" true none ["", ""]
    [.plain "lexical_declaration" true none ["", " ", "", ""]
      [.plain "let" false (some "kind") ["let"] [],
        .plain "variable_declarator" true none ["", "", " ", " ", ""]
          [.plain "identifier" true (some "name") ["x"] [],
            .erased "type_annotation" true (some "type"),
            .plain "=" false none ["="] [],
            .typed "as_expression" true (some "value") (some (.plain "identifier" true none ["y"] []))],
        .plain ";" false none [";"] []]]

theorem outline_numberTree : outline "let x: number = y as A;" numberTree = ascribedOutline :=
  rfl

theorem outline_arrayTree : outline "let x: B[] = y as any;" arrayTree = ascribedOutline :=
  rfl

theorem isParsed_numberTree : IsParsed "let x: number = y as A;" numberTree :=
  ⟨by rw [String.contains_char_eq]; decide, rfl, by decide +kernel⟩

theorem isParsed_arrayTree : IsParsed "let x: B[] = y as any;" arrayTree :=
  ⟨by rw [String.contains_char_eq]; decide, rfl, by decide +kernel⟩

/-- Neither the annotation nor the type behind `as` shows in the module. -/
theorem lower_of_outline_eq_ascribed :
    (∀ lowered, lower (fun _ _ => numberTree) .tsx {} "let x: number = y as A;" = .ok lowered ↔
      lower (fun _ _ => arrayTree) .tsx {} "let x: B[] = y as any;" = .ok lowered) ∧
    ∀ message, RejectedWith message (lower (fun _ _ => numberTree) .tsx {} "let x: number = y as A;") ↔
      RejectedWith message (lower (fun _ _ => arrayTree) .tsx {} "let x: B[] = y as any;") :=
  lower_of_outline_eq isParsed_numberTree isParsed_arrayTree (by decide +kernel) (by decide +kernel)
    (outline_numberTree.trans outline_arrayTree.symm)

end LivePreview.Lowering
