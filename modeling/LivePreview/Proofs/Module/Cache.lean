/-
  LivePreview.Proofs.Module.Cache
  ───────────────────────────────
  **A module cache is never wrong.**

  A cache is *sound* if every entry holds what its content becomes.  Whatever a cache
  drops, it stays sound, so that it does not matter which changes it hears
  (`Sound.hear`); what it answers for a tree of texts is what a cache without entries
  answers, and it stays sound by what it keeps of that (`Sound.moduleAt`).
-/
import LivePreview.Module.Cache
import LivePreview.Proofs.Tree.Attaching

namespace LivePreview.Module

open LivePreview.Lowering (Options Parser)

/-! ## §1. Contents -/

/-- A value counts as equal to a text only if it is that text. -/
theorem agrees_text_iff {a : Json} {s : Text} : a.agrees (.text s) = true ↔ a = .text s := by
  cases a <;> simp [Json.agrees, Json.isNumber]

/-- What is read from a tree of texts is a text. -/
theorem exists_text_of_read {tree : Tree} (htexts : tree.HoldsTexts) {path : Text} {content : Json}
    (hread : tree.read path = .ok content) : ∃ s, content = .text s :=
  htexts _ _ (Tree.get?_of_read hread) _ rfl

namespace Cache

/-! ## §2. Sound caches -/

variable {parser : Parser} {options : Options} {cache : Cache}

/-- Every entry holds what its content becomes. -/
structure Sound (parser : Parser) (options : Options) (cache : Cache) : Prop where
  options_eq : cache.options = options
  result_eq : ∀ path entry, cache.entries[path]? = some entry →
    ofContent parser options path entry.content = .ok entry.result

theorem sound_new (parser : Parser) (options : Options) : (new options).Sound parser options := by
  refine ⟨rfl, fun path entry hentry => ?_⟩
  have hnone : (new options).entries[path]? = none := Std.ExtTreeMap.getElem?_empty
  rw [hnone] at hentry
  cases hentry

/-- A cache that holds no more than a sound one is sound. -/
theorem Sound.of_subset (h : cache.Sound parser options) {other : Cache}
    (hoptions : other.options = cache.options)
    (hsubset : ∀ (path : Text) entry,
      other.entries[path]? = some entry → cache.entries[path]? = some entry) :
    other.Sound parser options :=
  ⟨hoptions.trans h.options_eq, fun path entry hentry =>
    h.result_eq path entry (hsubset path entry hentry)⟩

theorem Sound.drop (h : cache.Sound parser options) (path : Text) :
    (cache.drop path).Sound parser options := by
  refine h.of_subset rfl fun q entry hentry => ?_
  rw [Cache.drop, Std.ExtTreeMap.getElem?_erase] at hentry
  split at hentry
  · cases hentry
  · exact hentry

theorem Sound.dropWithin (h : cache.Sound parser options) (directory : Text) :
    (cache.dropWithin directory).Sound parser options := by
  refine h.of_subset rfl fun q entry hentry => ?_
  rw [Cache.dropWithin, Std.ExtTreeMap.getElem?_filter'] at hentry
  exact (Option.filter_eq_some_iff.mp hentry).1

theorem Sound.clear (h : cache.Sound parser options) : cache.clear.Sound parser options := by
  refine h.of_subset rfl fun q entry hentry => ?_
  have hnone : cache.clear.entries[q]? = none := Std.ExtTreeMap.getElem?_empty
  rw [hnone] at hentry
  cases hentry

/-- Whatever change a cache hears, it stays sound. -/
theorem Sound.hear (h : cache.Sound parser options) (change : Tree.Change) :
    (cache.hear change).Sound parser options := by
  cases change with
  | created path kind =>
    cases kind with
    | file => exact h.drop path
    | directory => exact h
  | modified path => exact h.drop path
  | deleted path kind =>
    cases kind with
    | file => exact h.drop path
    | directory => exact h.dropWithin path
  | renamed path kind newPath => exact h.dropWithin path

theorem Sound.invalidate (h : cache.Sound parser options) (path? : Option Text) :
    (cache.invalidate path?).Sound parser options := by
  cases path? with
  | none => exact h.clear
  | some path => exact h.dropWithin _

theorem Sound.keep (h : cache.Sound parser options) {path : Text} {entry : Entry}
    (hentry : ofContent parser options path entry.content = .ok entry.result) :
    (cache.keep path entry).Sound parser options := by
  refine ⟨h.options_eq, fun q other hother => ?_⟩
  rw [Cache.keep, Std.ExtTreeMap.getElem?_insert] at hother
  split at hother
  · next heq =>
    cases hother
    rw [← Std.LawfulEqCmp.compare_eq_iff_eq.mp heq]
    exact hentry
  · exact h.result_eq q other hother

/-! ## §3. Answers -/

/-- What becomes of a content, as the answer to a request. -/
def answerTo : Except Breakdown (Except Error Module) → Except Failure Module
  | .ok result => answerOf result
  | .error breakdown => .error (.breakdown breakdown)

/-- What is kept for a text is what the text becomes. -/
theorem Sound.lookup?_eq_some (h : cache.Sound parser options) {path s : Text}
    {result : Except Error Module} (hlookup : cache.lookup? path (.text s) = some result) :
    ofContent parser options path (.text s) = .ok result := by
  unfold lookup? at hlookup
  cases hentry : cache.entries[path]? with
  | none =>
    rw [hentry] at hlookup
    cases hlookup
  | some entry =>
    rw [hentry] at hlookup
    dsimp only at hlookup
    split at hlookup
    · -- on texts agreement is equality
      next hsame =>
      cases hlookup
      have hcontent : entry.content = .text s := by
        rw [Bool.or_eq_true, decide_eq_true_eq, agrees_text_iff, or_self] at hsame
        exact hsame
      rw [← hcontent]
      exact h.result_eq path entry hentry
    · cases hlookup

/-- A sound cache answers what the text becomes, and stays sound. -/
theorem Sound.moduleOf (h : cache.Sound parser options) (path s : Text) :
    (cache.moduleOf parser path (.text s)).1 = answerTo (ofContent parser options path (.text s))
      ∧ (cache.moduleOf parser path (.text s)).2.Sound parser options := by
  obtain rfl := h.options_eq
  unfold Cache.moduleOf
  split
  · next result hlookup =>
    rw [h.lookup?_eq_some hlookup]
    exact ⟨rfl, h.of_subset rfl fun _ _ hentry => hentry⟩
  · have hcounted : Sound parser cache.options { cache with misses := cache.misses + 1 } :=
      h.of_subset rfl fun _ _ hentry => hentry
    dsimp only
    split
    · next result hmade =>
      rw [hmade]
      exact ⟨rfl, hcounted.keep hmade⟩
    · next breakdown hmade =>
      rw [hmade]
      exact ⟨rfl, hcounted⟩

/-- For a tree of texts a sound cache answers what a new one answers, and stays sound. -/
theorem Sound.moduleAt (h : cache.Sound parser options) {tree : Tree} (htexts : tree.HoldsTexts)
    (path : Text) :
    (cache.moduleAt parser tree path).1 = ((new options).moduleAt parser tree path).1
      ∧ (cache.moduleAt parser tree path).2.Sound parser options := by
  unfold Cache.moduleAt
  cases hread : tree.read path with
  | error e => exact ⟨rfl, h⟩
  | ok content =>
    obtain ⟨s, rfl⟩ := exists_text_of_read htexts hread
    have hmodule := h.moduleOf (Path.normalize path) s
    have hnew := (sound_new parser options).moduleOf (Path.normalize path) s
    exact ⟨hmodule.1.trans hnew.1.symm, hmodule.2⟩

end Cache

end LivePreview.Module
