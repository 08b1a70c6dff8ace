/-
  LivePreview.Proofs.Module.Sites
  ───────────────────────────────
  **The sites of every module are exact.**

  A script has the sites of its lowered code, whose literals land where they say; a
  style sheet and a JSON file have none.  So whatever becomes of a content, its sites
  follow one another inside the code, the literals of their specifiers stand at them,
  and the specifiers are among the imports (`sitesExact_of_ofContent`).
-/
import LivePreview.Proofs.Lowering.Module
import LivePreview.Proofs.Module.Cache

namespace LivePreview.Module

open LivePreview.Lowering (Dialect Options Parser)

/-- The sites follow one another inside the code; at each of them stands the literal of its
specifier, which is one of the imports. -/
structure SitesExact (found : Module) : Prop where
  ordered : found.sites.Pairwise fun a b => a.stop ≤ b.start
  bounds : ∀ site ∈ found.sites, site.start < site.stop ∧ site.stop ≤ found.code.points.length
  literal_eq : ∀ site ∈ found.sites,
    found.code.points.extract site.start site.stop = (Json.literal site.specifier : Text).points
  mem_imports : ∀ site ∈ found.sites, site.specifier ∈ found.imports

theorem sitesExact_of_sites_eq_nil {found : Module} (h : found.sites = []) : found.SitesExact := by
  have hnone : ∀ site, site ∉ found.sites := by
    intro site
    rw [h]
    exact List.not_mem_nil
  refine ⟨?_, fun site hsite => absurd hsite (hnone site), fun site hsite => absurd hsite (hnone site),
    fun site hsite => absurd hsite (hnone site)⟩
  rw [h]
  exact List.Pairwise.nil

variable {parser : Parser} {options : Options} {path : Text} {found : Module}

theorem sitesExact_of_ofScript {dialect : Dialect} {source : String}
    (hok : ofScript parser options path dialect source = .ok (.ok found)) : found.SitesExact := by
  unfold ofScript at hok
  split at hok
  · next lowered hlower =>
    cases hok
    obtain ⟨⟨plain, hplaced⟩, himports⟩ := Lowering.placed_lower hlower
    refine ⟨hplaced.ordered, fun site hsite => ?_, fun site hsite => ?_, himports⟩
    · have hbounds := hplaced.bounds site hsite
      show site.start < site.stop ∧ site.stop ≤ (lowered.code.toList.map CodePoint.char).length
      rw [List.length_map]
      omega
    · have hliteral : ([] ++ lowered.code.toList).extract site.start site.stop = _ :=
        hplaced.extract rfl site hsite
      show (lowered.code.toList.map CodePoint.char).extract site.start site.stop
        = (Json.literal site.specifier).toList.map CodePoint.char
      rw [List.nil_append, List.extract_eq_take_drop] at hliteral
      rw [List.extract_eq_take_drop, ← List.map_drop, ← List.map_take, hliteral]
  all_goals cases hok

theorem sitesExact_of_ofJson {text : Text} (hok : ofJson path text = .ok (.ok found)) :
    found.SitesExact := by
  unfold ofJson at hok
  split at hok
  · cases hok
    exact sitesExact_of_sites_eq_nil rfl
  all_goals cases hok

theorem sitesExact_of_ofText {text : Text} (hok : ofText parser options path text = .ok (.ok found)) :
    found.SitesExact := by
  unfold ofText at hok
  split at hok
  · split at hok
    · exact sitesExact_of_ofScript hok
    · split at hok
      · cases hok
      · cases hok
  · cases hok
    exact sitesExact_of_sites_eq_nil rfl
  · exact sitesExact_of_ofJson hok
  · cases hok

theorem sitesExact_of_ofCollection {content : Json} {holdsNul : Bool}
    (hok : ofCollection path content holdsNul = .ok (.ok found)) : found.SitesExact := by
  unfold ofCollection at hok
  split at hok
  · split at hok
    · cases hok
    · cases hok
  · cases hok
    exact sitesExact_of_sites_eq_nil rfl
  · cases hok
  · cases hok

/-- **Whatever a content becomes, its sites are exact.** -/
theorem sitesExact_of_ofContent {content : Json}
    (hok : ofContent parser options path content = .ok (.ok found)) : found.SitesExact := by
  unfold ofContent at hok
  split at hok
  · exact sitesExact_of_ofText hok
  · exact sitesExact_of_ofCollection hok
  · exact sitesExact_of_ofCollection hok
  · cases hok

/-- What a sound cache answers has exact sites. -/
theorem Cache.Sound.sitesExact {cache : Cache} (hcache : cache.Sound parser options) {tree : Tree}
    (htexts : tree.HoldsTexts) (hok : (cache.moduleAt parser tree path).1 = .ok found) :
    found.SitesExact := by
  unfold Cache.moduleAt at hok
  cases hread : tree.read path with
  | error e =>
    rw [hread] at hok
    cases hok
  | ok content =>
    obtain ⟨s, rfl⟩ := exists_text_of_read htexts hread
    rw [hread] at hok
    have hanswer : answerTo (ofContent parser options (Path.normalize path) (.text s)) = .ok found :=
      (hcache.moduleOf (Path.normalize path) s).1.symm.trans hok
    rcases hcontent : ofContent parser options (Path.normalize path) (.text s) with
      breakdown | error | made
    · rw [hcontent] at hanswer
      cases hanswer
    · rw [hcontent] at hanswer
      cases hanswer
    · rw [hcontent] at hanswer
      cases hanswer
      exact sitesExact_of_ofContent hcontent

end LivePreview.Module
