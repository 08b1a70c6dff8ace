/-
  LivePreview.Proofs.Lowering.Module
  ──────────────────────────────────
  **The sites of a lowered module are exact.**

  The code of a module is finished from code that fits, so every literal lands at its
  site and nothing else has changed (`lower_sites_exact`).  Whatever the options hold,
  the sites are in order, and every specifier at a site is one of the imports
  (`placed_lower`).
-/
import LivePreview.Lowering.Module
import LivePreview.Proofs.Lowering.Emission
import LivePreview.Proofs.Result

namespace LivePreview.Lowering

open LivePreview.Syntax (Node)

/-! ## §1. The preamble -/

/-- What stands in front of the body of a module that needs `React`. -/
def preamble (number : Nat) : Code :=
  Code.ofText "import React from " ++ [.site number] ++ Code.ofText ";\n"

/-- The preamble is the last to get a placeholder, and its specifier becomes the first import. -/
theorem withPreamble_eq_ok {options : Options} {body code : Code} {imports : List Text}
    {before after : State}
    (hok : (withPreamble options body).run before = .ok ((code, imports), after)) :
    (before.reactSource? options = none ∧ code = body ∧ imports = before.imports ∧ after = before) ∨
      ∃ source, before.reactSource? options = some source ∧
        code = preamble before.sites.length ++ body ∧ imports = moveToFront source before.imports ∧
          after = { before with sites := before.sites ++ [source] } := by
  unfold withPreamble at hok
  rw [StateT.run_bind, StateT.run_get, pure_bind] at hok
  dsimp only at hok
  cases hsource : before.reactSource? options with
  | none =>
    rw [hsource] at hok
    cases hok
    exact .inl ⟨rfl, rfl, rfl, rfl⟩
  | some source =>
    rw [hsource] at hok
    cases hok
    exact .inr ⟨source, rfl, rfl, rfl, rfl⟩

theorem mem_moveToFront {specifier source : Text} {imports : List Text}
    (h : specifier = source ∨ specifier ∈ imports) : specifier ∈ moveToFront source imports := by
  unfold moveToFront
  by_cases heq : specifier = source
  · rw [heq]
    exact List.mem_cons_self
  · exact List.mem_cons_of_mem _ ((List.mem_erase_of_ne heq).mpr (h.resolve_left heq))

/-- The code of a module fits, and its specifiers are imports. -/
theorem emitModule_eq_ok {context : Context} {root : Node} {code : Code} {imports : List Text}
    {state : State} (hok : (emitModule context root).run {} = .ok ((code, imports), state)) :
    code.Fits context state.sites.length ∧ state.sites ⊆ imports := by
  unfold emitModule at hok
  rw [StateT.run_bind] at hok
  obtain ⟨⟨body, between⟩, hbody, hrest⟩ := Result.bind_eq_ok_iff.mp hok
  obtain ⟨hextends, hfits⟩ := ensures_emit context root {} body between (Nat.zero_le _) hbody
  have hrecorded : between.sites ⊆ between.imports := hextends.recorded (List.nil_subset _)
  rcases withPreamble_eq_ok hrest with ⟨-, rfl, rfl, rfl⟩ | ⟨source, -, rfl, rfl, rfl⟩
  · exact ⟨hfits, hrecorded⟩
  · -- the preamble adds a site behind all others, though it stands in front of them
    have hlength : (between.sites ++ [source]).length = between.sites.length + 1 := by simp
    refine ⟨?_, fun specifier hspecifier => ?_⟩
    · show Code.Fits context (between.sites ++ [source]).length _
      rw [hlength]
      have hsite : Code.Fits context (between.sites.length + 1) [.site between.sites.length] := by
        intro _ piece hpiece
        rw [List.mem_singleton.mp hpiece]
        exact Nat.lt_succ_self _
      exact (((Code.fits_ofText_of_nulFree (by decide)).append hsite).append
        (Code.fits_ofText_of_nulFree (by decide))).append (hfits.mono (Nat.le_succ _))
    · rcases List.mem_append.mp hspecifier with hmem | hmem
      · exact mem_moveToFront (.inr (hrecorded hmem))
      · exact mem_moveToFront (.inl (List.mem_singleton.mp hmem))

/-! ## §2. Lowered modules -/

section Lower

variable {parser : Parser} {dialect : Dialect} {options : Options} {source : String}
  {lowered : LoweredModule}

/-- A lowered module is the finished code of its tree. -/
theorem lower_eq_ok (hok : lower parser dialect options source = .ok lowered) :
    NulFree source ∧ ∃ code state,
      (emitModule ⟨source, options⟩ (parser dialect source)).run {}
          = .ok ((code, lowered.imports), state) ∧
        code.finish state.sites = .ok (lowered.code, lowered.sites) := by
  unfold lower at hok
  split at hok
  · cases hok
  · next hnul =>
    refine ⟨fun hmem => hnul (by rw [String.contains_char_eq, decide_eq_true hmem]), ?_⟩
    dsimp only at hok
    split at hok
    · cases hok
    · split at hok
      · unfold lowerTree at hok
        obtain ⟨⟨⟨code, imports⟩, state⟩, hrun, hrest⟩ := Result.bind_eq_ok_iff.mp hok
        obtain ⟨⟨text, sites⟩, hfinish, hdone⟩ := Result.bind_eq_ok_iff.mp hrest
        cases hdone
        exact ⟨code, state, hrun, Result.mapError_eq_ok_iff.mp hfinish⟩
      · cases hok

/-- Literals stand at the sites of a lowered module, and their specifiers are imports. -/
theorem placed_lower (hok : lower parser dialect options source = .ok lowered) :
    (∃ plain, Placed 0 lowered.code.toList lowered.sites plain)
      ∧ ∀ site ∈ lowered.sites, site.specifier ∈ lowered.imports := by
  obtain ⟨-, code, state, hrun, hfinish⟩ := lower_eq_ok hok
  obtain ⟨hplaced, hspecifiers⟩ := Code.placed_finish hfinish
  exact ⟨⟨_, hplaced⟩, fun site hsite => (emitModule_eq_ok hrun).2 (hspecifiers site hsite)⟩

/-- The code of a lowered module holds no NUL; its sites follow one another inside the code; at
each of them stands the literal of its specifier; and without these literals the code is the
emitted one without its placeholders. -/
theorem lower_sites_exact (hfactory : NulFree options.factory) (hfragment : NulFree options.fragment)
    (hok : lower parser dialect options source = .ok lowered) :
    NulFree lowered.code ∧
    lowered.sites.Pairwise (fun a b => a.start < b.start ∧ a.stop ≤ b.start) ∧
    (∀ site ∈ lowered.sites, site.start < site.stop ∧ site.stop ≤ lowered.code.toList.length ∧
      lowered.code.toList.extract site.start site.stop = (Json.literal site.specifier).toList) ∧
    ∃ code state,
      (emitModule ⟨source, options⟩ (parser dialect source)).run {}
          = .ok ((code, lowered.imports), state) ∧
        exchange (fun _ => []) 0 lowered.sites lowered.code.toList = code.plain := by
  obtain ⟨hsource, code, state, hrun, hfinish⟩ := lower_eq_ok hok
  have hclean : code.IsClean state.sites.length :=
    (emitModule_eq_ok hrun).1 ⟨hsource, hfactory, hfragment⟩
  have hplaced := hclean.placed_finish hfinish
  refine ⟨hplaced.nul_not_mem hclean.nul_not_mem_plain, ?_, fun site hsite => ?_,
    code, state, hrun, hplaced.exchange_nil⟩
  · refine hplaced.ordered.imp_of_mem fun {a b} ha _ hab => ⟨?_, hab⟩
    have := (hplaced.bounds a ha).2.1
    omega
  · have hbounds := hplaced.bounds site hsite
    have hliteral : ([] ++ lowered.code.toList).extract site.start site.stop = _ :=
      hplaced.extract rfl site hsite
    exact ⟨hbounds.2.1, by omega, hliteral⟩

end Lower

/-- The tree of `import 'é';`. -/
def importTree : Node :=
  ⟨"program", true, false, 0, 12, none,
    [⟨"import_statement", true, false, 0, 12, none,
      [⟨"import", false, false, 0, 6, none, []⟩,
        ⟨"string", true, false, 7, 11, some "source",
          [⟨"'", false, false, 7, 8, none, []⟩, ⟨"string_fragment", true, false, 8, 10, none, []⟩,
            ⟨"'", false, false, 10, 11, none, []⟩]⟩,
        ⟨";", false, false, 11, 12, none, []⟩]⟩]⟩

theorem lower_importTree : lower (fun _ _ => importTree) .tsx {} "import 'é';"
    = .ok ⟨"import \"\\u00e9\";", ["é"], [⟨7, 15, "é"⟩], false⟩ := by
  unfold lower
  rw [String.contains_char_eq, if_neg (by decide)]
  rfl

/-- The literal of a specifier beyond ASCII is longer than its source. -/
theorem lower_sites_exact_importTree :
    let lowered : LoweredModule := ⟨"import \"\\u00e9\";", ["é"], [⟨7, 15, "é"⟩], false⟩
    NulFree lowered.code ∧
    lowered.sites.Pairwise (fun a b => a.start < b.start ∧ a.stop ≤ b.start) ∧
    (∀ site ∈ lowered.sites, site.start < site.stop ∧ site.stop ≤ lowered.code.toList.length ∧
      lowered.code.toList.extract site.start site.stop = (Json.literal site.specifier).toList) ∧
    ∃ code state,
      (emitModule ⟨"import 'é';", {}⟩ importTree).run {} = .ok ((code, lowered.imports), state) ∧
        exchange (fun _ => []) 0 lowered.sites lowered.code.toList = code.plain :=
  lower_sites_exact (by decide) (by decide) lower_importTree

end LivePreview.Lowering
