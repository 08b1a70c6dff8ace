/-
  LivePreview.Proofs.Result
  ─────────────────────────
  **Results that are not errors, taken apart.**
-/

namespace LivePreview.Result

variable {α β ε δ : Type}

theorem map_eq_ok_iff {x : Except ε α} {f : α → β} {b : β} :
    x.map f = .ok b ↔ ∃ a, x = .ok a ∧ f a = b := by
  cases x with
  | error e => simp [Except.map]
  | ok a => simp [Except.map]

theorem map_eq_error_iff {x : Except ε α} {f : α → β} {e : ε} :
    x.map f = .error e ↔ x = .error e := by
  cases x with
  | error e => simp [Except.map]
  | ok a => simp [Except.map]

theorem bind_eq_ok_iff {x : Except ε α} {f : α → Except ε β} {b : β} :
    x >>= f = .ok b ↔ ∃ a, x = .ok a ∧ f a = .ok b := by
  cases x with
  | error e => simp [bind, Except.bind]
  | ok a => simp [bind, Except.bind]

/-- What every step of a fold that goes on preserves holds at its end. -/
theorem foldlM_preserves {P : β → Prop} {f : β → α → Except ε β} {as : List α}
    (hstep : ∀ b a b', P b → f b a = .ok b' → P b') {b b' : β} (h : P b)
    (hok : as.foldlM f b = .ok b') : P b' := by
  induction as generalizing b with
  | nil =>
    cases hok
    exact h
  | cons a as ih =>
    rw [List.foldlM_cons] at hok
    obtain ⟨between, hfirst, hrest⟩ := bind_eq_ok_iff.mp hok
    exact ih (hstep b a between h hfirst) hrest

/-- Each of the results of a list is that of one of its members. -/
theorem exists_of_mem_of_mapM_eq_ok {f : α → Except ε β} {as : List α} {bs : List β}
    (hok : as.mapM f = .ok bs) {b : β} (hmem : b ∈ bs) : ∃ a ∈ as, f a = .ok b := by
  induction as generalizing bs with
  | nil =>
    cases hok
    cases hmem
  | cons a as ih =>
    rw [List.mapM_cons] at hok
    obtain ⟨first, hfirst, hok⟩ := bind_eq_ok_iff.mp hok
    obtain ⟨rest, hrest, hok⟩ := bind_eq_ok_iff.mp hok
    obtain rfl := Except.ok.inj hok
    rcases List.mem_cons.mp hmem with rfl | hmem
    · exact ⟨a, List.mem_cons_self, hfirst⟩
    · obtain ⟨other, hother, heq⟩ := ih hrest hmem
      exact ⟨other, List.mem_cons_of_mem _ hother, heq⟩

theorem mapError_eq_ok_iff {x : Except ε α} {f : ε → δ} {a : α} :
    x.mapError f = .ok a ↔ x = .ok a := by
  cases x with
  | error e =>
    constructor
    · intro h
      cases h
    · intro h
      cases h
  | ok b =>
    show (.ok b : Except δ α) = .ok a ↔ _
    rw [Except.ok.injEq, Except.ok.injEq]

/-- Results that are the same up to a change of their errors, used in the same way. -/
theorem mapError_bind_congr {x y : Except ε α} {g k : α → Except ε β} {f : ε → δ}
    (h : x.mapError f = y.mapError f) (hnext : ∀ a, (g a).mapError f = (k a).mapError f) :
    (x >>= g).mapError f = (y >>= k).mapError f := by
  cases x with
  | error e =>
    cases y with
    | error e' => exact congrArg Except.error (Except.error.inj h)
    | ok b => cases h
  | ok a =>
    cases y with
    | error e' => cases h
    | ok b =>
      cases Except.ok.inj h
      exact hnext a

end LivePreview.Result
