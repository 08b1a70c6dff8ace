/-
  LivePreview.Proofs.Pairwise
  ───────────────────────────
  **Searching two lists that are related element by element.**

  Whatever is selected from two such lists by conditions that do not tell related
  elements apart is related again: all elements that satisfy a condition
  (`forall₂_filter`), the first one (`rel_find?`), or the one at a position.
-/
import Mathlib.Data.List.Forall2

namespace LivePreview

variable {α β γ : Type} {R : α → β → Prop} {xs : List α} {ys : List β}

/-- Related elements stand at one place of their lists. -/
theorem forall₂_zip (h : List.Forall₂ R xs ys) :
    List.Forall₂ (fun a b => (a, b) ∈ xs.zip ys ∧ R a b) xs ys :=
  List.forall₂_iff_zip.mpr ⟨h.length_eq, fun hmem => ⟨hmem, (List.forall₂_iff_zip.mp h).2 hmem⟩⟩

section Conditions

variable {p : α → Bool} {q : β → Bool}

theorem forall₂_filter (h : List.Forall₂ R xs ys) (hp : ∀ a b, R a b → p a = q b) :
    List.Forall₂ R (xs.filter p) (ys.filter q) := by
  induction h with
  | nil => exact .nil
  | @cons a b xs ys hab _ ih =>
    rw [List.filter_cons, List.filter_cons, hp a b hab]
    split
    · exact .cons hab ih
    · exact ih

theorem any_eq_of_forall₂ (h : List.Forall₂ R xs ys) (hp : ∀ a b, R a b → p a = q b) :
    xs.any p = ys.any q := by
  induction h with
  | nil => rfl
  | @cons a b xs ys hab _ ih => rw [List.any_cons, List.any_cons, hp a b hab, ih]

theorem rel_find? (h : List.Forall₂ R xs ys) (hp : ∀ a b, R a b → p a = q b) :
    Option.Rel R (xs.find? p) (ys.find? q) := by
  induction h with
  | nil => exact .none
  | @cons a b xs ys hab _ ih =>
    rw [List.find?_cons, List.find?_cons, hp a b hab]
    split
    · exact .some hab
    · exact ih

end Conditions

theorem rel_getElem? (h : List.Forall₂ R xs ys) (i : Nat) : Option.Rel R xs[i]? ys[i]? := by
  induction h generalizing i with
  | nil => exact .none
  | cons hab _ ih =>
    cases i with
    | zero => exact .some hab
    | succ i => exact ih i

theorem rel_head? (h : List.Forall₂ R xs ys) : Option.Rel R xs.head? ys.head? := by
  cases h with
  | nil => exact .none
  | cons hab _ => exact .some hab

theorem rel_getLast? (h : List.Forall₂ R xs ys) : Option.Rel R xs.getLast? ys.getLast? := by
  rw [List.getLast?_eq_getElem?, List.getLast?_eq_getElem?, h.length_eq]
  exact rel_getElem? h _

theorem map_eq_of_forall₂ (h : List.Forall₂ R xs ys) {f : α → γ} {g : β → γ}
    (hf : ∀ a b, R a b → f a = g b) : xs.map f = ys.map g := by
  induction h with
  | nil => rfl
  | @cons a b xs ys hab _ ih => rw [List.map_cons, List.map_cons, hf a b hab, ih]

theorem flatMap_eq_of_forall₂ (h : List.Forall₂ R xs ys) {f : α → List γ} {g : β → List γ}
    (hf : ∀ a b, R a b → f a = g b) : xs.flatMap f = ys.flatMap g := by
  rw [List.flatMap_def, List.flatMap_def, map_eq_of_forall₂ h hf]

theorem filterMap_eq_of_forall₂ (h : List.Forall₂ R xs ys) {f : α → Option γ} {g : β → Option γ}
    (hf : ∀ a b, R a b → f a = g b) : xs.filterMap f = ys.filterMap g := by
  induction h with
  | nil => rfl
  | @cons a b xs ys hab _ ih => rw [List.filterMap_cons, List.filterMap_cons, hf a b hab, ih]

theorem isEmpty_eq_of_forall₂ (h : List.Forall₂ R xs ys) : xs.isEmpty = ys.isEmpty := by
  cases h <;> rfl

theorem forall₂_of_map_eq {f : α → γ} {g : β → γ} (h : xs.map f = ys.map g) :
    List.Forall₂ (fun a b => f a = g b) xs ys := by
  have hsame : List.Forall₂ Eq (xs.map f) (ys.map g) := by
    rw [h]
    exact List.forall₂_refl _
  rwa [List.forall₂_map_left_iff, List.forall₂_map_right_iff] at hsame

/-- What is found in one of two places in both cases is related. -/
theorem rel_orElse {a a' : Option α} {b b' : Option β} (h : Option.Rel R a b) (h' : Option.Rel R a' b') :
    Option.Rel R (a <|> a') (b <|> b') := by
  cases h with
  | none => exact h'
  | some hab => exact .some hab

/-- Either nothing is there in both cases, or what is there is related. -/
theorem rel_cases {a : Option α} {b : Option β} (h : Option.Rel R a b) :
    a = none ∧ b = none ∨ ∃ x y, a = some x ∧ b = some y ∧ R x y := by
  cases h with
  | none => exact .inl ⟨rfl, rfl⟩
  | some hab => exact .inr ⟨_, _, rfl, rfl, hab⟩

theorem rel_bind {γ δ : Type} {S : γ → δ → Prop} {a : Option α} {b : Option β} (h : Option.Rel R a b)
    {f : α → Option γ} {g : β → Option δ}
    (hf : ∀ x y, a = some x → R x y → Option.Rel S (f x) (g y)) :
    Option.Rel S (a.bind f) (b.bind g) := by
  cases h with
  | none => exact .none
  | some hab => exact hf _ _ rfl hab

theorem any_eq_of_rel {a : Option α} {b : Option β} (h : Option.Rel R a b) {p : α → Bool} {q : β → Bool}
    (hp : ∀ a b, R a b → p a = q b) : a.any p = b.any q := by
  cases h with
  | none => rfl
  | some hab => exact hp _ _ hab

theorem isSome_eq_of_rel {a : Option α} {b : Option β} (h : Option.Rel R a b) : a.isSome = b.isSome := by
  cases h <;> rfl

theorem map_orElse {f : α → γ} (a a' : Option α) : (a <|> a').map f = (a.map f <|> a'.map f) := by
  cases a <;> rfl

end LivePreview
