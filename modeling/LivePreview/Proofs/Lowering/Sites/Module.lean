/-
  LivePreview.Proofs.Lowering.Sites.Module
  ────────────────────────────────────────
  **The imports of a lowered module are the specifiers at its sites.**

  The placeholders of the body come in the order in which their numbers were given out
  (`orderly_draft`), and the specifiers that got numbers are the imports.  The preamble
  gets the last number and stands in front of everything, and its specifier is moved to
  the front of the imports.  Finished code has a site for every placeholder, so

      imports  =  the specifiers at the sites, each at its first place   (`lower_imports_eq`)
-/
import Mathlib.Data.List.Basic
import LivePreview.Proofs.Lowering.Module
import LivePreview.Proofs.Lowering.Sites.Imports

namespace LivePreview.Lowering

open LivePreview.Syntax (Node)

/-! ## §1. Specifiers of code -/

namespace Code

/-- The specifiers at the placeholders, in order. -/
def specifiers (sites : List Text) (code : Code) : List Text :=
  code.numbers.filterMap (sites[·]?)

/-- Further specifiers do not matter if the numbers are those of the given ones. -/
theorem specifiers_append_of_lt {sites others : List Text} {code : Code}
    (h : ∀ number ∈ code.numbers, number < sites.length) :
    code.specifiers (sites ++ others) = code.specifiers sites :=
  List.filterMap_congr fun number hnumber => List.getElem?_append_left (h number hnumber)

/-- The sites that are filled in are those of the placeholders, one after the other. -/
theorem map_specifier_fillFrom {specifiers : List Text} {position : Nat} {code : Code}
    {cs : List Char} {sites : List Site}
    (hok : fillFrom specifiers position (code.map Piece.mark) = .ok (cs, sites)) :
    sites.map Site.specifier = code.specifiers specifiers := by
  induction code generalizing position cs sites with
  | nil =>
    cases hok
    rfl
  | cons piece code ih =>
    rw [List.map_cons] at hok
    cases piece with
    | char c =>
      obtain ⟨rest, hrest, -⟩ := fillFrom_char_eq_ok hok
      exact ih hrest
    | site number =>
      obtain ⟨specifier, rest, others, hspecifier, hrest, -, rfl⟩ := fillFrom_site_eq_ok hok
      have hnumbers : numbers (.site number :: code) = number :: numbers code := rfl
      unfold Code.specifiers
      rw [hnumbers, List.filterMap_cons_some hspecifier, List.map_cons, ih hrest]
      rfl

/-- Finished clean code has a site for every placeholder. -/
theorem IsClean.map_specifier_finish {specifiers : List Text} {code : Code} {text : String}
    {sites : List Site} (hclean : code.IsClean specifiers.length)
    (hok : finish specifiers code = .ok (text, sites)) :
    sites.map Site.specifier = code.specifiers specifiers :=
  map_specifier_fillFrom (hclean.fillFrom_of_finish hok)

end Code

/-! ## §2. Emitted code -/

/-- The imports behind a body are the specifiers at its placeholders. -/
theorem imports_emit {context : Context} {root : Node} (hapart : ImportsApart root) {body : Code}
    {state : State} (hrun : (emit context root).run {} = .ok (body, state)) :
    (∀ number ∈ body.numbers, number < state.sites.length)
      ∧ state.imports = (body.specifiers state.sites).eraseDups := by
  obtain ⟨htallied, own, hnumbers, hcounted⟩ :=
    (orderly_draft context root hapart).emission {} body state (Nat.zero_le _) rfl hrun
  rw [List.nil_append] at hnumbers
  subst hnumbers
  have hspecifiers := hcounted.inOrder.eraseDups_eq (Nat.le_refl state.sites.length)
  have hnone : ({} : State).sites = [] := rfl
  rw [hnone, List.length_nil, List.take_zero, List.nil_append, List.take_length] at hspecifiers
  exact ⟨hcounted.inOrder.lt, htallied.trans hspecifiers.symm⟩

theorem moveToFront_eraseDups (source : Text) (specifiers : List Text) :
    moveToFront source specifiers.eraseDups = (source :: specifiers).eraseDups := by
  unfold moveToFront
  rw [erase_eraseDups, List.eraseDups_cons]

theorem numbers_preamble_append (number : Nat) (body : Code) :
    (preamble number ++ body).numbers = number :: body.numbers := by
  unfold preamble
  rw [Code.numbers_append, Code.numbers_append, Code.numbers_append, Code.numbers_ofText,
    Code.numbers_ofText, Code.numbers_site]
  rfl

/-- The imports are the specifiers at the placeholders, and the preamble comes first both in the code
and among the imports. -/
theorem imports_emitModule {context : Context} {root : Node} (hapart : ImportsApart root)
    {code : Code} {imports : List Text} {state : State}
    (hrun : (emitModule context root).run {} = .ok ((code, imports), state)) :
    imports = (code.specifiers state.sites).eraseDups ∧
    ∃ body between, (emit context root).run {} = .ok (body, between) ∧
      ∀ react, between.reactSource? context.options = some react → imports.head? = some react := by
  unfold emitModule at hrun
  rw [StateT.run_bind] at hrun
  obtain ⟨⟨body, between⟩, hbody, hrest⟩ := Result.bind_eq_ok_iff.mp hrun
  obtain ⟨hlt, himports⟩ := imports_emit hapart hbody
  rcases withPreamble_eq_ok hrest with ⟨hreact, rfl, rfl, rfl⟩ | ⟨source, hreact, rfl, rfl, rfl⟩
  · refine ⟨himports, _, _, hbody, fun react hsome => ?_⟩
    rw [hreact] at hsome
    cases hsome
  · -- the preamble takes the number behind those of the body, whose specifiers stay the same
    have hsource : (between.sites ++ [source])[between.sites.length]? = some source := by simp
    have hspecifiers : (preamble between.sites.length ++ body).specifiers (between.sites ++ [source])
        = source :: body.specifiers between.sites := by
      rw [← Code.specifiers_append_of_lt hlt]
      unfold Code.specifiers
      rw [numbers_preamble_append, List.filterMap_cons_some hsource]
    refine ⟨?_, _, _, hbody, fun react hsome => ?_⟩
    · rw [himports, moveToFront_eraseDups]
      exact congrArg List.eraseDups hspecifiers.symm
    · rw [hreact] at hsome
      exact hsome

/-! ## §3. Lowered modules -/

section Lower

variable {parser : Parser} {dialect : Dialect} {options : Options} {source : String}
  {lowered : LoweredModule}

/-- The imports are the specifiers of the sites, in the order of the sites and without later
repetitions, so the module imports what stands at its sites and nothing else; and where `React` is
imported for the elements, it comes first. -/
theorem lower_imports_eq (hfactory : NulFree options.factory) (hfragment : NulFree options.fragment)
    (hapart : ImportsApart (parser dialect source))
    (hok : lower parser dialect options source = .ok lowered) :
    lowered.imports = (lowered.sites.map Site.specifier).eraseDups ∧
    (∀ specifier, specifier ∈ lowered.imports ↔ ∃ site ∈ lowered.sites, site.specifier = specifier) ∧
    ∃ body state, (emit ⟨source, options⟩ (parser dialect source)).run {} = .ok (body, state) ∧
      ∀ react, state.reactSource? options = some react →
        lowered.imports.head? = some react ∧ lowered.sites.head?.map Site.specifier = some react := by
  obtain ⟨hsource, code, state, hrun, hfinish⟩ := lower_eq_ok hok
  have hclean : code.IsClean state.sites.length :=
    (emitModule_eq_ok hrun).1 ⟨hsource, hfactory, hfragment⟩
  obtain ⟨hspecifiers, body, between, hbody, hhead⟩ := imports_emitModule hapart hrun
  have himports : lowered.imports = (lowered.sites.map Site.specifier).eraseDups := by
    rw [hclean.map_specifier_finish hfinish]
    exact hspecifiers
  refine ⟨himports, fun specifier => by rw [himports, List.mem_eraseDups, List.mem_map],
    body, between, hbody, fun react hreact => ?_⟩
  have hfirst : lowered.imports.head? = some react := hhead react hreact
  refine ⟨hfirst, ?_⟩
  rw [← List.head?_map, ← head?_eraseDups, ← himports, hfirst]

end Lower

/-- A token of the source. -/
def tokenNode (kind : String) (start stop : Nat) : Node :=
  ⟨kind, false, false, start, stop, none, []⟩

/-- A literal in double quotes. -/
def stringNode (field? : Option String) (start stop : Nat) : Node :=
  ⟨"string", true, false, start, stop, field?,
    [tokenNode "\"" start (start + 1),
      ⟨"string_fragment", true, false, start + 1, stop - 1, none, []⟩,
      tokenNode "\"" (stop - 1) stop]⟩

/-- An import of one character in double quotes. -/
def importNode (start : Nat) : Node :=
  ⟨"import_statement", true, false, start, start + 11, none,
    [tokenNode "import" start (start + 6), stringNode (some "source") (start + 7) (start + 10),
      tokenNode ";" (start + 10) (start + 11)]⟩

/-- Two statements that import the same, and between them an element with a call of `import`. -/
def elementSource : String :=
  "import \"b\";<A c=\x7bimport(\"a\")\x7d/>;import \"b\";"

/-- The tree of `elementSource`. -/
def elementTree : Node :=
  ⟨"program", true, false, 0, 43, none,
    [importNode 0,
      ⟨"expression_statement", true, false, 11, 32, none,
        [⟨"jsx_self_closing_element", true, false, 11, 31, none,
          [tokenNode "<" 11 12, ⟨"identifier", true, false, 12, 13, some "name", []⟩,
            ⟨"jsx_attribute", true, false, 14, 29, some "attribute",
              [⟨"property_identifier", true, false, 14, 15, none, []⟩, tokenNode "=" 15 16,
                ⟨"jsx_expression", true, false, 16, 29, none,
                  [tokenNode "\x7b" 16 17,
                    ⟨"call_expression", true, false, 17, 28, none,
                      [⟨"import", true, false, 17, 23, some "function", []⟩,
                        ⟨"arguments", true, false, 23, 28, some "arguments",
                          [tokenNode "(" 23 24, stringNode none 24 27, tokenNode ")" 27 28]⟩]⟩,
                    tokenNode "\x7d" 28 29]⟩]⟩,
            tokenNode "/>" 29 31]⟩,
          tokenNode ";" 31 32]⟩,
      importNode 32]⟩

/-- The module that `elementSource` is lowered to. -/
def elementModule : LoweredModule :=
  ⟨"import React from \"react\";\nimport \"b\";React.createElement(A, \x7b c: import(\"a\") \x7d);"
      ++ "import \"b\";",
    ["react", "b", "a"], [⟨18, 25, "react"⟩, ⟨34, 37, "b"⟩, ⟨73, 76, "a"⟩, ⟨88, 91, "b"⟩], true⟩

theorem lower_elementTree :
    lower (fun _ _ => elementTree) .tsx {} elementSource = .ok elementModule := by
  unfold lower
  rw [String.contains_char_eq, if_neg (by decide)]
  decide +kernel

/-- The import of `React` is the last one that is recorded, and `b` is imported twice. -/
theorem lower_imports_eq_elementTree :
    elementModule.imports = (elementModule.sites.map Site.specifier).eraseDups ∧
    (∀ specifier, specifier ∈ elementModule.imports ↔
      ∃ site ∈ elementModule.sites, site.specifier = specifier) ∧
    ∃ body state, (emit ⟨elementSource, {}⟩ elementTree).run {} = .ok (body, state) ∧
      ∀ react, state.reactSource? {} = some react →
        elementModule.imports.head? = some react ∧
          elementModule.sites.head?.map Site.specifier = some react :=
  lower_imports_eq (by decide) (by decide) (by decide : ImportsApart elementTree) lower_elementTree

end LivePreview.Lowering
