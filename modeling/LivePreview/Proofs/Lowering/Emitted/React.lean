/-
  LivePreview.Proofs.Lowering.Emitted.React
  ─────────────────────────────────────────
  **When `React` is imported for the elements of a module.**

  The calls that elements become name `React`.  So a module in which an element is emitted
  gets an import of `React` in front of its code, if the options name a module to import it
  from, and if no import statement that is emitted binds the name to a value (`NeedsReact`,
  `lower_preamble`).

  Import statements are all that is asked.  A declaration at the top level binds the name
  as well (`DeclaresReact`), and then the import in front of it is one binding too many:

      source   const React = h; <a/>
      code     import React from "react";
               const React = h; React.createElement("a", null)
-/
import LivePreview.Proofs.Lowering.Emitted.Tree

namespace LivePreview.Lowering

open LivePreview.Syntax (Node)

/-! ## §1. Clean code in front -/

namespace Code

variable {specifiers : List Text} {position : Nat} {marks : List Mark} {cs : List Char} {sites : List Site}

/-- What is filled in does not depend on where it stands. -/
theorem exists_fillFrom (hok : fillFrom specifiers position marks = .ok (cs, sites)) (other : Nat) :
    ∃ others, fillFrom specifiers other marks = .ok (cs, others) := by
  induction marks generalizing position other cs sites with
  | nil =>
    cases hok
    exact ⟨[], rfl⟩
  | cons mark marks ih =>
    cases mark with
    | char c =>
      obtain ⟨rest, hrest, rfl⟩ := fillFrom_char_eq_ok hok
      obtain ⟨others, hothers⟩ := ih hrest (other + 1)
      exact ⟨others, by rw [fillFrom, hothers]; rfl⟩
    | overlong digits => cases hok
    | site number =>
      obtain ⟨specifier, rest, behind, hspecifier, hrest, rfl, -⟩ := fillFrom_site_eq_ok hok
      obtain ⟨others, hothers⟩ := ih hrest (other + (Json.literal specifier).toList.length)
      refine ⟨⟨other, other + (Json.literal specifier).toList.length, specifier⟩ :: others, ?_⟩
      rw [fillFrom, hspecifier]
      dsimp only
      rw [hothers]
      rfl

/-- Behind clean code the rest is filled in. -/
theorem fillFrom_append {front : Code}
    (hok : fillFrom specifiers position (front.map Piece.mark ++ marks) = .ok (cs, sites)) :
    ∃ rest start others, fillFrom specifiers start marks = .ok (rest, others) ∧
      cs = front.filled specifiers ++ rest := by
  induction front generalizing position cs sites with
  | nil => exact ⟨cs, position, sites, hok, rfl⟩
  | cons piece front ih =>
    rw [List.map_cons, List.cons_append] at hok
    cases piece with
    | char c =>
      obtain ⟨behind, hbehind, rfl⟩ := fillFrom_char_eq_ok hok
      obtain ⟨rest, start, others, hrest, rfl⟩ := ih hbehind
      exact ⟨rest, start, others, hrest, rfl⟩
    | site number =>
      obtain ⟨specifier, behind, found, hspecifier, hbehind, rfl, -⟩ := fillFrom_site_eq_ok hok
      obtain ⟨rest, start, others, hrest, rfl⟩ := ih hbehind
      refine ⟨rest, start, others, hrest, ?_⟩
      unfold filled
      rw [List.flatMap_cons, fillPiece, hspecifier, Option.getD_some, List.append_assoc]

/-- **Clean code in front of any other code is finished by itself.** -/
theorem finish_append {front code : Code} {text : String} (hclean : front.IsClean specifiers.length)
    (hok : finish specifiers (front ++ code) = .ok (text, sites)) :
    ∃ rest others, finish specifiers code = .ok (rest, others) ∧
      text = String.ofList (front.filled specifiers) ++ rest := by
  have hfill := fillFrom_of_finish hok
  rw [marked_append, scan_marked_append hclean fun _ h => length_toDigits_le_digitLimit h] at hfill
  obtain ⟨rest, start, behind, hrest, htext⟩ := fillFrom_append hfill
  obtain ⟨others, hothers⟩ := exists_fillFrom hrest 0
  refine ⟨String.ofList rest, others, ?_, ?_⟩
  · unfold finish fill
    rw [hothers]
    rfl
  · rw [← String.ofList_append, ← htext, String.ofList_toList]

end Code

/-! ## §2. Bindings -/

/-- The names that a part of an import clause binds to values. -/
def importedNames (context : Context) (part : Node) : List String :=
  if part.kind == "identifier" then [context.text part]
  else if part.kind == "namespace_import" then part.namedChildren.map context.text
  else if part.kind == "named_imports" then
    (keptImports part).flatMap fun specifier => ((localName? specifier).map context.text).toList
  else []

/-- The names that an import statement binds to values. -/
def boundNames (context : Context) (statement : Node) : List String :=
  if statement.kind == "import_statement" && !statement.hasToken "type" then
    ((statement.namedChildren.find? (·.kind == "import_clause")).map fun clause =>
      clause.namedChildren.flatMap (importedNames context)).getD []
  else []

/-- The names that a pattern binds. -/
def patternNames (context : Context) : Node → List String :=
  Node.fold fun node results =>
    let named := namedResults node results
    if node.kind == "identifier" || node.kind == "shorthand_property_identifier_pattern" then
      [context.text node]
    else if node.kind == "assignment_pattern" || node.kind == "object_assignment_pattern" then
      (named.head?).getD []
    else if node.kind == "pair_pattern" then (named.getLast?).getD []
    else if ["object_pattern", "array_pattern", "rest_pattern"].contains node.kind then named.flatten
    else []

/-- The names that a declaration of variables, of a function or of a class binds. -/
def declaredNames (context : Context) (declaration : Node) : List String :=
  if ["lexical_declaration", "variable_declaration"].contains declaration.kind then
    declaration.namedChildren.flatMap fun declarator =>
      ((declarator.childByField? "name").map (patternNames context)).getD []
  else if ["function_declaration", "generator_function_declaration", "class_declaration",
      "abstract_class_declaration"].contains declaration.kind then
    ((declaration.childByField? "name").map context.text).toList
  else []

/-- The statements at the top level, and in place of exports what they declare. -/
def topDeclarations (root : Node) : List Node :=
  root.namedChildren.map fun statement =>
    if statement.kind == "export_statement" then (statement.childByField? "declaration").getD statement
    else statement

/-- A declaration at the top level binds the name `React`. -/
def DeclaresReact (context : Context) (root : Node) : Prop :=
  ∃ declaration ∈ topDeclarations root, "React" ∈ declaredNames context declaration

/-- An element is emitted, and no import statement that is emitted binds the name `React`. -/
structure NeedsReact (context : Context) (root : Node) : Prop where
  element : ∃ element, Emits context root element ∧ isElement element = true
  unbound : ∀ statement, Emits context root statement → "React" ∉ boundNames context statement

section Bindings

variable {context : Context} {root node part : Node} {body : Code} {state : State}

theorem partBindsReact_iff : partBindsReact context part = true ↔ "React" ∈ importedNames context part := by
  unfold partBindsReact importedNames isReact
  split
  · rw [beq_iff_eq, List.mem_singleton, eq_comm]
  · split
    · rw [List.any_eq_true, List.mem_map]
      simp only [beq_iff_eq]
    · split
      · rw [List.any_eq_true, List.mem_flatMap]
        refine exists_congr fun specifier => and_congr_right fun _ => ?_
        rw [Option.mem_toList, Option.map_eq_some_iff, Option.any_eq_true]
        simp only [beq_iff_eq]
      · exact iff_of_false Bool.false_ne_true List.not_mem_nil

/-- What is noted of an import is that it binds the name. -/
theorem importsReact_iff : importsReact context node = true ↔ "React" ∈ boundNames context node := by
  unfold importsReact boundNames
  cases hvalue : node.kind == "import_statement" && !node.hasToken "type" with
  | false => exact iff_of_false Bool.false_ne_true List.not_mem_nil
  | true =>
    rw [Bool.true_and, if_pos rfl]
    cases node.namedChildren.find? (·.kind == "import_clause") with
    | none => exact iff_of_false Bool.false_ne_true List.not_mem_nil
    | some clause =>
      rw [Option.any_some, Option.map_some, Option.getD_some, List.any_eq_true, List.mem_flatMap]
      exact exists_congr fun part => and_congr_right fun _ => partBindsReact_iff

/-- **The notes of a tree tell whether it needs `React`.** -/
theorem needsReact_iff (hrun : (emit context root).run {} = .ok (body, state)) :
    NeedsReact context root ↔ (state.usesJsx && !state.bindsReact) = true := by
  have hjsx := collected_iff (P := (·.usesJsx = true)) usesJsx_enter hrun
  have hreact := collected_iff (P := (·.bindsReact = true)) bindsReact_enter hrun
  rw [or_iff_right Bool.false_ne_true] at hjsx hreact
  rw [Bool.and_eq_true, Bool.not_eq_true', ← Bool.not_eq_true, hjsx, hreact]
  refine ⟨fun h => ⟨h.element, ?_⟩, fun h => ⟨h.1, fun statement hemits hbinds => h.2 ?_⟩⟩
  · rintro ⟨statement, hemits, himports⟩
    exact h.unbound statement hemits (importsReact_iff.mp himports)
  · exact ⟨statement, hemits, importsReact_iff.mpr hbinds⟩

end Bindings

/-! ## §3. The import in front -/

/-- The module to import `React` from, if the options name one. -/
def Options.reactModule? (options : Options) : Option Text :=
  (options.importSource?.filter (!·.isEmpty)).map Text.ofString

/-- The text of the import of `React`. -/
def reactImport (react : Text) : String :=
  "import React from " ++ Json.literal react ++ ";\n"

theorem reactImport_ne (react : Text) : reactImport react ≠ "" := by
  intro h
  have hlist := congrArg String.toList h
  unfold reactImport at hlist
  rw [String.toList_append] at hlist
  exact absurd (List.append_eq_nil_iff.mp hlist).2 (by decide)

theorem isClean_preamble {number count : Nat} (h : number < count) : (preamble number).IsClean count := by
  have hchars : ∀ text ∈ ["import React from ", ";\n"], ∀ piece ∈ Code.ofText text, piece.IsClean count := by
    intro text htext piece hpiece
    obtain ⟨c, hc, rfl⟩ := List.mem_map.mp hpiece
    have hall : ∀ text ∈ ["import React from ", ";\n"], '\x00' ∉ text.toList := by decide
    exact fun hnul => hall text htext (hnul ▸ hc)
  intro piece hpiece
  unfold preamble at hpiece
  rcases List.mem_append.mp hpiece with hpiece | hpiece
  · rcases List.mem_append.mp hpiece with hpiece | hpiece
    · exact hchars _ (by decide) piece hpiece
    · rw [List.mem_singleton.mp hpiece]
      exact h
  · exact hchars _ (by decide) piece hpiece

theorem filled_preamble {specifiers : List Text} {number : Nat} {react : Text}
    (h : specifiers[number]? = some react) :
    String.ofList ((preamble number).filled specifiers) = reactImport react := by
  have hsite : Code.filled specifiers [.site number] = (Json.literal react).toList := by
    unfold Code.filled
    rw [List.flatMap_singleton, Code.fillPiece, h, Option.getD_some]
  unfold preamble reactImport
  rw [Code.filled_append, Code.filled_append, Code.filled_ofText, Code.filled_ofText, hsite]
  simp only [String.ofList_append, String.ofList_toList]

section Lower

variable {parser : Parser} {dialect : Dialect} {options : Options} {source : String}
  {lowered : LoweredModule}

/-- **`React` is imported exactly where it is needed**, whatever the options are: in front of the finished
body of the module stands the import if an element is emitted, the options name a module, and no import
statement that is emitted binds the name; and otherwise there is nothing.  A declaration that binds
the name makes no difference. -/
theorem lower_preamble (hok : lower parser dialect options source = .ok lowered) :
    let context : Context := ⟨source, options⟩
    let root := parser dialect source
    ∃ body state front text specifiers sites, (emit context root).run {} = .ok (body, state) ∧
      body.finish specifiers = .ok (text, sites) ∧ lowered.code = front ++ text ∧
      (front = "" ∨ ∃ react, options.reactModule? = some react ∧ front = reactImport react ∧
        lowered.imports.head? = some react) ∧
      (front ≠ "" ↔ NeedsReact context root ∧ options.reactModule? ≠ none) := by
  intro context root
  obtain ⟨-, code, after, hrun, hfinish⟩ := lower_eq_ok hok
  unfold emitModule at hrun
  rw [StateT.run_bind] at hrun
  obtain ⟨⟨body, state⟩, hbody, hrest⟩ := Result.bind_eq_ok_iff.mp hrun
  have hneeds := needsReact_iff hbody
  have hsource : state.reactSource? options
      = if state.usesJsx && !state.bindsReact then options.reactModule? else none := rfl
  rcases withPreamble_eq_ok hrest with ⟨hnone, rfl, -, rfl⟩ | ⟨react, hsome, rfl, himports, rfl⟩
  · refine ⟨_, _, "", lowered.code, after.sites, lowered.sites, hbody, hfinish,
      (String.empty_append).symm, .inl rfl, ?_⟩
    rw [hneeds]
    refine iff_of_false (fun h => h rfl) fun h => h.2 ?_
    rwa [hsource, if_pos h.1] at hnone
  · have hneed : (state.usesJsx && !state.bindsReact) = true := by
      by_contra hnot
      rw [hsource, if_neg hnot] at hsome
      cases hsome
    have hmodule : options.reactModule? = some react := by
      rwa [hsource, if_pos hneed] at hsome
    obtain ⟨text, others, htext, hcode⟩ :=
      Code.finish_append (isClean_preamble (by simp)) hfinish
    have hreact : (state.sites ++ [react])[state.sites.length]? = some react := by simp
    rw [filled_preamble hreact] at hcode
    refine ⟨body, state, reactImport react, text, _, others, hbody, htext, hcode,
      .inr ⟨react, hmodule, rfl, ?_⟩, ?_⟩
    · rw [himports]
      rfl
    · rw [hneeds]
      exact iff_of_true (reactImport_ne react) ⟨hneed, by rw [hmodule]; exact Option.some_ne_none _⟩

end Lower

/-- A module with an element that binds no names has the import in front. -/
theorem lower_preamble_elementTree :
    let context : Context := ⟨elementSource, {}⟩
    NeedsReact context elementTree ∧ ∃ text, elementModule.code = reactImport "react" ++ text := by
  intro context
  have hnotes : ((emit context elementTree).run {}).map (fun result =>
      result.2.usesJsx && !result.2.bindsReact) = .ok true := by
    decide +kernel
  obtain ⟨body, state, front, text, _, _, hrun, -, hcode, hfront, hiff⟩ :=
    lower_preamble lower_elementTree
  have hneeds : NeedsReact context elementTree := by
    rw [hrun] at hnotes
    exact (needsReact_iff hrun).mpr (Except.ok.inj hnotes)
  refine ⟨hneeds, text, ?_⟩
  rcases hfront with hnone | ⟨react, hreact, hfront, -⟩
  · exact absurd hnone (hiff.mpr ⟨hneeds, by decide⟩)
  · obtain rfl : (Text.ofString "react") = react := Option.some.inj hreact
    rw [hcode, hfront]

/-- The tree of `const React=1;<a/>`. -/
def declaringTree : Node :=
  ⟨"program", true, false, 0, 18, none,
    [⟨"lexical_declaration", true, false, 0, 14, none,
        [⟨"const", false, false, 0, 5, some "kind", []⟩,
          ⟨"variable_declarator", true, false, 6, 13, none,
            [⟨"identifier", true, false, 6, 11, some "name", []⟩, tokenNode "=" 11 12,
              ⟨"number", true, false, 12, 13, some "value", []⟩]⟩,
          tokenNode ";" 13 14]⟩,
      ⟨"expression_statement", true, false, 14, 18, none,
        [⟨"jsx_self_closing_element", true, false, 14, 18, none,
          [tokenNode "<" 14 15, ⟨"identifier", true, false, 15, 16, some "name", []⟩,
            tokenNode "/>" 16 18]⟩]⟩]⟩

/-- **A name that is bound twice.**  The module declares `React` itself, and yet imports it. -/
theorem lower_declared_twice :
    let source := "const React=1;<a/>"
    DeclaresReact ⟨source, {}⟩ declaringTree ∧
      lower (fun _ _ => declaringTree) .tsx {} source
        = .ok ⟨"import React from \"react\";\nconst React=1;React.createElement(\"a\", null)",
            ["react"], [⟨18, 25, "react"⟩], true⟩ := by
  intro source
  refine ⟨⟨_, List.mem_of_getElem? (i := 0) rfl, by decide +kernel⟩, ?_⟩
  unfold lower
  rw [String.contains_char_eq, if_neg (by decide)]
  decide +kernel

end LivePreview.Lowering
