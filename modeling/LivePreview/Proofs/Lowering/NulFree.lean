/-
  LivePreview.Proofs.Lowering.NulFree
  ───────────────────────────────────
  **Texts without NUL characters.**

  NUL characters mark the placeholders in emitted code, so a text that is emitted must
  not hold one.  Slices of a source without NULs hold none, literals escape them, and
  numerals consist of other characters.
-/
import LivePreview.Lowering.Numbering
import LivePreview.Proofs.Json.Encodable
import LivePreview.Syntax.Node

namespace LivePreview.Lowering

open LivePreview.Number (Binary64)
open LivePreview.Syntax (Node)

/-- The text holds no NUL character. -/
def NulFree (text : String) : Prop :=
  '\x00' ∉ text.toList

instance (text : String) : Decidable (NulFree text) :=
  inferInstanceAs (Decidable (_ ∉ _))

/-! ## §1. Parts and wholes -/

theorem nulFree_ofList {cs : List Char} : NulFree (String.ofList cs) ↔ '\x00' ∉ cs := by
  rw [NulFree, String.toList_ofList]

theorem nulFree_append {a b : String} : NulFree (a ++ b) ↔ NulFree a ∧ NulFree b := by
  rw [NulFree, String.toList_append, List.mem_append, not_or]
  rfl

theorem NulFree.append {a b : String} (ha : NulFree a) (hb : NulFree b) : NulFree (a ++ b) :=
  nulFree_append.mpr ⟨ha, hb⟩

theorem nulFree_join {texts : List String} (h : ∀ text ∈ texts, NulFree text) :
    NulFree (String.join texts) := by
  rw [NulFree, String.toList_join, List.mem_flatMap]
  rintro ⟨text, htext, hmem⟩
  exact h text htext hmem

theorem nulFree_intercalate {separator : String} {texts : List String} (hsep : NulFree separator)
    (h : ∀ text ∈ texts, NulFree text) : NulFree (separator.intercalate texts) := by
  induction texts with
  | nil => rw [String.intercalate_nil]; decide
  | cons text texts ih =>
    obtain ⟨htext, hrest⟩ := List.forall_mem_cons.mp h
    by_cases hnil : texts = []
    · rw [hnil, String.intercalate_singleton]
      exact htext
    · rw [String.intercalate_cons_of_ne_nil hnil]
      exact (htext.append hsep).append (ih hrest)

theorem mem_of_mem_extract_go₂ {c : Char} {cs : List Char} {i e : String.Pos.Raw}
    (h : c ∈ String.Pos.Raw.extract.go₂ cs i e) : c ∈ cs := by
  induction cs generalizing i with
  | nil => exact h
  | cons d cs ih =>
    change c ∈ (if i = e then [] else d :: String.Pos.Raw.extract.go₂ cs (i + d) e) at h
    split at h
    · cases h
    · rcases List.mem_cons.mp h with rfl | h
      · exact List.mem_cons_self
      · exact List.mem_cons_of_mem d (ih h)

theorem mem_of_mem_extract_go₁ {c : Char} {cs : List Char} {i b e : String.Pos.Raw}
    (h : c ∈ String.Pos.Raw.extract.go₁ cs i b e) : c ∈ cs := by
  induction cs generalizing i with
  | nil => exact h
  | cons d cs ih =>
    change c ∈ (if i = b then String.Pos.Raw.extract.go₂ (d :: cs) i e
      else String.Pos.Raw.extract.go₁ cs (i + d) b e) at h
    split at h
    · exact mem_of_mem_extract_go₂ h
    · exact List.mem_cons_of_mem d (ih h)

/-- A part of a source holds no characters but those of the source. -/
theorem NulFree.slice {source : String} (h : NulFree source) (start stop : Nat) :
    NulFree (Node.slice source start stop) := by
  have hslice : Node.slice source start stop = if start ≥ stop then ""
      else String.ofList (String.Pos.Raw.extract.go₁ source.toList 0 ⟨start⟩ ⟨stop⟩) := rfl
  rw [hslice]
  split
  · decide
  · rw [nulFree_ofList]
    exact fun hmem => h (mem_of_mem_extract_go₁ hmem)

theorem NulFree.text {source : String} (h : NulFree source) (node : Node) :
    NulFree (node.text source) :=
  h.slice node.start node.stop

/-! ## §2. Numerals -/

theorem nul_not_mem_toDigits {base : Nat} (hbase : 1 < base) (hlimit : base ≤ 16) (n : Nat) :
    '\x00' ∉ Nat.toDigits base n :=
  fun hmem => absurd (Json.isAlphanum_of_mem_toDigits hbase hlimit n hmem) (by decide)

theorem nulFree_toString (n : Int) : NulFree (toString n) := by
  have hnat : ∀ m : Nat, NulFree m.repr := by
    intro m
    rw [NulFree, Nat.toList_repr]
    exact nul_not_mem_toDigits (by omega) (by omega) m
  cases n with
  | ofNat m => exact hnat m
  | negSucc m => exact NulFree.append (a := "-") (by decide) (hnat _)

theorem nul_not_mem_dropEndWhile {p : Char → Bool} {cs : List Char} (h : '\x00' ∉ cs) :
    '\x00' ∉ Text.dropEndWhile p cs := by
  unfold Text.dropEndWhile
  intro hmem
  rw [List.mem_reverse] at hmem
  exact h (List.mem_reverse.mp ((List.dropWhile_sublist p).subset hmem))

theorem nul_not_mem_replicate (n : Nat) : '\x00' ∉ List.replicate n '0' := by
  rw [List.mem_replicate]
  rintro ⟨-, h⟩
  exact absurd h (by decide)

/-- The text of a double consists of digits, a point, a sign and the letter of an exponent. -/
theorem nul_not_mem_finiteText (m : Nat) (e : Int) : '\x00' ∉ Binary64.finiteText m e := by
  have hdigits : '\x00' ∉ (Binary64.shortest m e).1 :=
    nul_not_mem_dropEndWhile (nul_not_mem_toDigits (by omega) (by omega) _)
  have htake : ∀ n, '\x00' ∉ (Binary64.shortest m e).1.take n :=
    fun n hmem => hdigits (List.mem_of_mem_take hmem)
  have hdrop : ∀ n, '\x00' ∉ (Binary64.shortest m e).1.drop n :=
    fun n hmem => hdigits (List.mem_of_mem_drop hmem)
  unfold Binary64.finiteText
  split
  · decide
  · dsimp only
    split
    · unfold Binary64.positional
      split
      · simp [hdigits]
      · split
        · simp [hdigits]
        · simp [htake, hdrop]
    · have hplaces : '\x00' ∉ Nat.toDigits 10 ((Binary64.shortest m e).2 - 1).natAbs :=
        nul_not_mem_toDigits (by omega) (by omega) _
      have hsign : '\x00' ∉ ['e', if (Binary64.shortest m e).2 - 1 < 0 then '-' else '+'] := by
        split <;> decide
      unfold Binary64.scientific
      simp only [List.mem_append, not_or]
      refine ⟨⟨⟨⟨htake 1, ?_⟩, hsign⟩, nul_not_mem_replicate _⟩, hplaces⟩
      -- the point stands only in front of further digits
      split
      · exact List.not_mem_nil
      · rw [List.mem_cons, not_or]
        exact ⟨by decide, hdrop 1⟩

theorem nulFree_doubleText (x : Binary64) : NulFree x.text := by
  unfold Binary64.text Binary64.textWith
  split
  · decide
  · exact NulFree.append (by split <;> decide) (by decide)
  · exact NulFree.append (by split <;> decide) (nulFree_ofList.mpr (nul_not_mem_finiteText _ _))

theorem nulFree_plainDouble (x : Binary64) : NulFree (plainDouble x) := by
  unfold plainDouble
  split
  · exact nulFree_toString _
  · exact nulFree_doubleText x

/-- The text of the number one above a numeral is no text of the source. -/
theorem nulFree_successor? {text digits : String} (h : successor? text = .ok (some digits)) :
    NulFree digits := by
  unfold successor? at h
  split at h
  · obtain ⟨x, -, rfl⟩ := Option.map_eq_some_iff.mp (Except.ok.inj h)
    exact nulFree_plainDouble _
  · split at h
    · cases h
    · next n _ =>
      split at h
      · next found hfound =>
        cases h
        unfold Number.decimalText? at hfound
        split at hfound
        · cases hfound
          exact nulFree_toString _
        · cases hfound
      · cases h

/-! ## §3. Literals -/

/-- A literal holds no NUL: one in the text is escaped. -/
theorem nulFree_literal (text : Text) : NulFree (Json.literal text) :=
  Json.not_mem_literal (by decide) (fun hkept => absurd hkept.1 (by decide)) text

end LivePreview.Lowering
