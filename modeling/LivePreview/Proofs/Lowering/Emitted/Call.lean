/-
  LivePreview.Proofs.Lowering.Emitted.Call
  ────────────────────────────────────────
  **Calls of `import` that are collected.**

  A call of `import` may stand anywhere in a tree.  Wherever it is emitted, the string literal
  that it has as its first argument is collected if it is the first construct between the
  parentheses (`lower_import_call`): its specifier is an import, and in the code of the call
  stands its literal, at a site of the module:

      source   f(() => import("./a"))
      sites                  ↑

  A comment is a construct as well.  With one in front of its literal the call is emitted as it
  stands, and its specifier is no import unless another node records it.
-/
import LivePreview.Proofs.Lowering.Emitted.Tree

namespace LivePreview.Lowering

open LivePreview.Syntax (Node)

/-! ## §1. Calls of `import` -/

/-- The call is one of `import`, and the literal is its first argument, comments apart. -/
structure ImportsLiteral (call arguments literal : Node) : Prop where
  kind : call.kind = "call_expression"
  function : (call.childByField? "function").any (·.kind == "import") = true
  found : call.childByField? "arguments" = some arguments
  list : arguments.kind = "arguments"
  first : arguments.namedChildren.find? (·.kind != "comment") = some literal
  string : literal.kind = "string"

section Calls

variable {context : Context} {call arguments literal : Node}

/-- The literal is recorded exactly if no comment stands in front of it. -/
theorem ImportsLiteral.recordedLiteral? (context : Context) (h : ImportsLiteral call arguments literal) :
    (arguments.namedChildren.head? = some literal → recordedLiteral? context call = some literal) ∧
      (arguments.namedChildren.head? ≠ some literal → recordedLiteral? context call = none) := by
  obtain ⟨hkind, hfunction, harguments, -, hfirst, hstring⟩ := h
  obtain ⟨function, hfound, hname⟩ := (Option.any_eq_true _ _).mp hfunction
  obtain ⟨head, others, hnamed⟩ : ∃ head others, arguments.namedChildren = head :: others :=
    List.exists_cons_of_ne_nil (List.ne_nil_of_mem (List.mem_of_find?_eq_some hfirst))
  have hrule : Lowering.recordedLiteral? context call = if head.kind == "string" then some head else none := by
    have himported : importedLiteral? call
        = if function.kind == "import" && head.kind == "string" then some head else none := by
      unfold importedLiteral?
      rw [hfound, harguments]
      show ((arguments.namedChildren.head?).bind fun first => _) = _
      rw [hnamed]
      rfl
    rw [hname, Bool.true_and] at himported
    unfold Lowering.recordedLiteral?
    rw [hkind]
    exact himported
  rw [hrule, hnamed, List.head?_cons]
  rw [hnamed] at hfirst
  by_cases hcomment : head.kind = "comment"
  · -- a comment is no literal
    have hne : head ≠ literal := by
      rintro rfl
      rw [hstring] at hcomment
      exact absurd hcomment (by decide)
    exact ⟨fun hhead => absurd (Option.some.inj hhead) hne, fun _ => if_neg (by rw [hcomment]; decide)⟩
  · rw [List.find?_cons_of_pos (by simpa using hcomment)] at hfirst
    cases hfirst
    exact ⟨fun _ => if_pos (by rw [hstring]; rfl), fun hne => absurd rfl hne⟩

/-- A node that is emitted as it stands, without any tokens to lose, emits all its children. -/
theorem emittedParts_of_isAssembled {node : Node} (h : IsAssembled context node)
    (hkept : droppedTokens node.kind = []) : emittedParts context node = node.children := by
  have hchildren : keptChildren node = node.children := by
    unfold keptChildren
    rw [hkept]
    exact List.filter_eq_self.mpr fun child _ => by simp
  obtain ⟨hleaves, hwraps, hremade, himports, hassigns⟩ := h
  unfold leavesNothing at hleaves
  simp only [Bool.or_eq_false_iff] at hleaves
  obtain ⟨⟨⟨⟨hremoved, hreadonly⟩, -⟩, -⟩, hfield⟩ := hleaves
  unfold emittedParts
  rw [hremoved, hreadonly, if_neg Bool.false_ne_true, if_neg fun hmem => hwraps (List.contains_iff_mem.mp hmem),
    if_neg Bool.false_ne_true]
  unfold constructParts
  split
  · next hkind => exact absurd (hkind ▸ by decide) hremade
  · next hkind => exact absurd (hkind ▸ by decide) hremade
  · next hkind =>
    unfold callParts
    rw [himports hkind]
  · next hkind => exact absurd (hkind ▸ by decide) hremade
  · next hkind =>
    rw [hkind, beq_self_eq_true, Bool.true_and] at hfield
    rw [hfield, if_neg Bool.false_ne_true, hchildren]
  · next hkind => exact absurd (hkind ▸ by decide) hremade
  · next hkind => exact absurd (hkind ▸ by decide) hremade
  · next hkind =>
    unfold methodParts
    rw [hassigns hkind, if_neg Bool.false_ne_true, hchildren]
  · next hkind => exact absurd (hkind ▸ by decide) hremade
  · rw [if_neg fun hmem => hremade (List.mem_append_right _ (List.contains_iff_mem.mp hmem)), hchildren]

/-- A call with a comment in front of its literal is emitted as it stands, and the literal with it. -/
theorem ImportsLiteral.isAssembled (context : Context) (h : ImportsLiteral call arguments literal)
    (hcomment : arguments.namedChildren.head? ≠ some literal) :
    IsAssembled context call ∧ IsAssembled context literal ∧ Emits context call literal := by
  have hnone := (h.recordedLiteral? context).2 hcomment
  obtain ⟨hkind, -, harguments, hlist, hfirst, hstring⟩ := h
  rw [Lowering.recordedLiteral?, hkind] at hnone
  have hcall : IsAssembled context call := by
    refine ⟨?_, by rw [hkind]; decide, by rw [hkind]; decide, fun _ => hnone, fun h => ?_⟩
    · unfold leavesNothing Node.isToken
      rw [hkind]
      simp [removedKinds]
    · rw [hkind] at h
      exact absurd h (by decide)
  have hlisted : IsAssembled context arguments := isAssembled_of_kind hlist (by decide)
  have harguments := List.mem_of_find?_eq_some harguments
  refine ⟨hcall, isAssembled_of_kind hstring (by decide),
    .part (.part .self ?_ : Emits context call arguments) ?_⟩
  · rwa [emittedParts_of_isAssembled hcall (by rw [hkind]; rfl)]
  · rw [emittedParts_of_isAssembled hlisted (by rw [hlist]; rfl)]
    exact mem_children_of_named (List.mem_of_find?_eq_some hfirst)

end Calls

/-! ## §2. Lowered modules -/

section Lower

variable {parser : Parser} {dialect : Dialect} {options : Options} {source : String}
  {lowered : LoweredModule} {call arguments literal : Node}

/-- **A call of `import` with a string literal as its first argument is collected** wherever it is
emitted, if no comment stands in front of the literal: the specifier is an import, and its literal in
the code is a site.  Otherwise the call is emitted as it stands.  So of a specifier that no other node
records, it depends on the comments whether it is an import. -/
theorem lower_import_call (hok : lower parser dialect options source = .ok lowered)
    (hemits : Emits ⟨source, options⟩ (parser dialect source) call)
    (hcall : ImportsLiteral call arguments literal) :
    (arguments.namedChildren.head? = some literal → Collects lowered ⟨source, options⟩ call literal) ∧
    (arguments.namedChildren.head? ≠ some literal →
      IsAssembled ⟨source, options⟩ call ∧ IsAssembled ⟨source, options⟩ literal ∧
        Emits ⟨source, options⟩ (parser dialect source) literal) ∧
    (RecordsAlone ⟨source, options⟩ (parser dialect source) call (specifierOf source literal) →
      (specifierOf source literal ∈ lowered.imports ↔ arguments.namedChildren.head? = some literal)) := by
  obtain ⟨hliteral, hnone⟩ := hcall.recordedLiteral? ⟨source, options⟩
  refine ⟨fun hfirst => collects_of_recorded hok hemits (hliteral hfirst), fun hcomment => ?_, fun halone => ?_⟩
  · obtain ⟨hassembled, hstring, hinner⟩ := hcall.isAssembled ⟨source, options⟩ hcomment
    exact ⟨hassembled, hstring, hemits.trans hinner⟩
  · rw [mem_imports_iff_of_alone hok hemits halone, recordedSpecifier?]
    by_cases hfirst : arguments.namedChildren.head? = some literal
    · rw [hliteral hfirst]
      exact iff_of_true rfl hfirst
    · rw [hnone hfirst]
      exact iff_of_false (Option.some_ne_none _).symm hfirst

end Lower

/-- A call of `import` with the given arguments, from the seventh character on. -/
def importCall (arguments : Node) : Node :=
  ⟨"call_expression", true, false, 0, 15, none,
    [⟨"import", true, false, 0, 6, some "function", [tokenNode "import" 0 6]⟩, arguments]⟩

/-- A program of one statement, which is a call of `import`. -/
def importProgram (arguments : Node) : Node :=
  ⟨"program", true, false, 0, 15, none,
    [⟨"expression_statement", true, false, 0, 15, none, [importCall arguments]⟩]⟩

theorem emits_importCall {context : Context} (arguments : Node) :
    Emits context (importProgram arguments) (importCall arguments) :=
  .part (.part .self (List.mem_of_getElem? (i := 0) rfl)) (List.mem_of_getElem? (i := 0) rfl)

/-- The arguments of `import("a"/**/)`. -/
def commentBehind : Node :=
  ⟨"arguments", true, false, 6, 15, some "arguments",
    [tokenNode "(" 6 7, stringNode none 7 10, ⟨"comment", true, false, 10, 14, none, []⟩, tokenNode ")" 14 15]⟩

theorem lower_commentBehind :
    lower (fun _ _ => importProgram commentBehind) .typescript {} "import(\"a\"/**/)"
      = .ok ⟨"import(\"a\"/**/)", ["a"], [⟨7, 10, "a"⟩], false⟩ := by
  unfold lower
  rw [String.contains_char_eq, if_neg (by decide)]
  decide +kernel

/-- The comment behind the literal makes no difference. -/
theorem lower_import_call_commentBehind :
    let lowered : LoweredModule := ⟨"import(\"a\"/**/)", ["a"], [⟨7, 10, "a"⟩], false⟩
    let context : Context := ⟨"import(\"a\"/**/)", {}⟩
    Collects lowered context (importCall commentBehind) (stringNode none 7 10) := by
  intro lowered context
  have hcall : ImportsLiteral (importCall commentBehind) commentBehind (stringNode none 7 10) :=
    ⟨rfl, rfl, rfl, rfl, rfl, rfl⟩
  obtain ⟨hcollected, -, -⟩ :=
    lower_import_call lower_commentBehind (emits_importCall commentBehind) hcall
  exact hcollected rfl

/-- The arguments of `import(/**/"a")`. -/
def commentInFront : Node :=
  ⟨"arguments", true, false, 6, 15, some "arguments",
    [tokenNode "(" 6 7, ⟨"comment", true, false, 7, 11, none, []⟩, stringNode none 11 14, tokenNode ")" 14 15]⟩

/-- **A call that is not collected.**  Apart from the comment the literal is its first argument, but there
is no import. -/
theorem lower_commented_uncollected :
    let context : Context := ⟨"import(/**/\"a\")", {}⟩
    Emits context (importProgram commentInFront) (importCall commentInFront) ∧
      ImportsLiteral (importCall commentInFront) commentInFront (stringNode none 11 14) ∧
      lower (fun _ _ => importProgram commentInFront) .typescript {} context.source
        = .ok ⟨"import(/**/\"a\")", [], [], false⟩ := by
  intro context
  refine ⟨emits_importCall commentInFront, ⟨rfl, rfl, rfl, rfl, rfl, rfl⟩, ?_⟩
  unfold lower
  rw [String.contains_char_eq, if_neg (by decide)]
  decide +kernel

end LivePreview.Lowering
