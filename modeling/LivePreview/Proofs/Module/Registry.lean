/-
  LivePreview.Proofs.Module.Registry
  ──────────────────────────────────
  **The counts of a registry.**

  Giving a reference out raises its count by one, and giving it back lowers its count
  by one unless it is zero; no other count changes (`count_add`, `count_release`).  So
  a list of references that is given out or back raises or lowers each count by the
  number of times that the reference is listed (`count_foldl_add`, `count_releaseAll`).

  A registry keeps an entry for a reference only while its count is positive (`Tidy`),
  and the count is in it (`Tidy.getElem?_counts`), so that its entries are told by its
  counts (`Tidy.ext`) and their number is that of the live references
  (`Tidy.liveCount_eq_card`).

  Whatever is asked of a registry, in whatever order, it is a multiset from which a
  reference that is not there is taken without effect: it counts as the calls tell it
  (`tally`), and nothing else is left in it (`countsAs_of_run`).
-/
import LivePreview.Module.Registry
import Mathlib.Data.Finset.Card

namespace LivePreview.Module.Registry

variable {registry : Registry}

/-! ## §1. Counts -/

@[simp] theorem count_empty (reference : String) : empty.count reference = 0 := by
  have hnone : empty.counts[reference]? = none := Std.ExtTreeMap.getElem?_empty
  rw [count, hnone, Option.getD_none]

theorem count_insert (counts : Std.ExtTreeMap String Nat compare) (reference other : String)
    (number : Nat) : (⟨counts.insert reference number⟩ : Registry).count other
      = if reference = other then number else (⟨counts⟩ : Registry).count other := by
  unfold count
  rw [Std.ExtTreeMap.getElem?_insert]
  simp only [Std.LawfulEqCmp.compare_eq_iff_eq]
  split <;> rfl

theorem count_erase (counts : Std.ExtTreeMap String Nat compare) (reference other : String) :
    (⟨counts.erase reference⟩ : Registry).count other
      = if reference = other then 0 else (⟨counts⟩ : Registry).count other := by
  unfold count
  rw [Std.ExtTreeMap.getElem?_erase]
  simp only [Std.LawfulEqCmp.compare_eq_iff_eq]
  split <;> rfl

theorem count_add (registry : Registry) (reference other : String) :
    (registry.add reference).count other
      = registry.count other + if reference = other then 1 else 0 := by
  unfold add
  rw [count_insert]
  split
  · next heq => rw [heq]
  · rfl

theorem count_release (registry : Registry) (reference other : String) :
    (registry.release reference).count other
      = registry.count other - if reference = other then 1 else 0 := by
  unfold release
  split
  · -- the last one is given back, or there is none
    next hle =>
    rw [count_erase]
    split
    · next heq =>
      rw [heq] at hle
      omega
    · rfl
  · rw [count_insert]
    split
    · next heq => rw [heq]
    · rfl

/-- **Every count is raised by the number of times that its reference is given out.** -/
theorem count_foldl_add (registry : Registry) (references : List String) (other : String) :
    (references.foldl add registry).count other = registry.count other + references.count other := by
  induction references generalizing registry with
  | nil => rfl
  | cons reference references ih =>
    rw [List.foldl_cons, ih, count_add, List.count_cons, Nat.add_assoc, Nat.add_comm (ite _ _ _)]
    simp only [beq_iff_eq]

/-- **Every count is lowered by the number of times that its reference is given back.** -/
theorem count_releaseAll (registry : Registry) (references : List String) (other : String) :
    (registry.releaseAll references).count other = registry.count other - references.count other := by
  unfold releaseAll
  induction references generalizing registry with
  | nil => rfl
  | cons reference references ih =>
    rw [List.foldl_cons, ih, count_release, List.count_cons, Nat.sub_sub, Nat.add_comm]
    simp only [beq_iff_eq]

/-! ## §2. Entries -/

/-- Only references with a positive count have an entry. -/
def Tidy (registry : Registry) : Prop :=
  ∀ reference : String, registry.counts[reference]? ≠ some 0

theorem tidy_empty : empty.Tidy := by
  intro reference
  have hnone : empty.counts[reference]? = none := Std.ExtTreeMap.getElem?_empty
  rw [hnone]
  exact nofun

theorem Tidy.insert (h : registry.Tidy) {reference : String} {number : Nat} (hpos : 0 < number) :
    Tidy ⟨registry.counts.insert reference number⟩ := by
  intro other
  rw [Std.ExtTreeMap.getElem?_insert]
  split
  · rw [Ne, Option.some.injEq]
    omega
  · exact h other

theorem Tidy.add (h : registry.Tidy) (reference : String) : (registry.add reference).Tidy :=
  h.insert (Nat.succ_pos _)

theorem Tidy.foldl_add (h : registry.Tidy) (references : List String) :
    (references.foldl Registry.add registry).Tidy := by
  induction references generalizing registry with
  | nil => exact h
  | cons reference references ih => exact ih (h.add reference)

theorem Tidy.release (h : registry.Tidy) (reference : String) : (registry.release reference).Tidy := by
  unfold Registry.release
  split
  · intro other
    rw [Std.ExtTreeMap.getElem?_erase]
    split
    · exact nofun
    · exact h other
  · next hlt => exact h.insert (by omega)

theorem Tidy.releaseAll (h : registry.Tidy) (references : List String) :
    (registry.releaseAll references).Tidy := by
  unfold Registry.releaseAll
  induction references generalizing registry with
  | nil => exact h
  | cons reference references ih => exact ih (h.release reference)

/-- A tidy registry has an entry for a reference exactly if its count is positive, and the count is
in it. -/
theorem Tidy.getElem?_counts (h : registry.Tidy) (reference : String) :
    registry.counts[reference]?
      = if registry.count reference = 0 then none else some (registry.count reference) := by
  unfold count
  cases hentry : registry.counts[reference]? with
  | none => rfl
  | some number =>
    have hpos : number ≠ 0 := by
      rintro rfl
      exact h reference hentry
    rw [Option.getD_some, if_neg hpos]

/-- Tidy registries with the same counts are the same. -/
theorem Tidy.ext {other : Registry} (h : registry.Tidy) (hother : other.Tidy)
    (hcount : ∀ reference, registry.count reference = other.count reference) : registry = other := by
  refine Registry.ext (Std.ExtTreeMap.ext_getElem? fun reference => ?_)
  rw [h.getElem?_counts, hother.getElem?_counts, hcount]

/-- Nothing changes if a reference is given back that is not live. -/
theorem Tidy.release_eq_self (h : registry.Tidy) {reference : String}
    (hzero : registry.count reference = 0) : registry.release reference = registry := by
  refine (h.release reference).ext h fun other => ?_
  rw [count_release]
  split
  · next heq => rw [← heq, hzero]
  · rfl

/-- **The live references are counted** by the number of entries. -/
theorem Tidy.liveCount_eq_card (h : registry.Tidy) : ∃ live : Finset String,
    (∀ reference, reference ∈ live ↔ 0 < registry.count reference) ∧ registry.liveCount = live.card := by
  refine ⟨registry.counts.keys.toFinset, fun reference => ?_, ?_⟩
  · rw [List.mem_toFinset, Std.ExtTreeMap.mem_keys, Std.ExtTreeMap.mem_iff_isSome_getElem?,
      h.getElem?_counts, Nat.pos_iff_ne_zero]
    split <;> simp_all
  · rw [List.toFinset_card_of_nodup Std.ExtTreeMap.nodup_keys, Std.ExtTreeMap.length_keys, liveCount]

/-- **Nothing is live if all counts are zero.** -/
theorem Tidy.liveCount_eq_zero (h : registry.Tidy) (hzero : ∀ reference, registry.count reference = 0) :
    registry.liveCount = 0 := by
  obtain ⟨live, hlive, hcard⟩ := h.liveCount_eq_card
  have hempty : live = ∅ := Finset.eq_empty_of_forall_notMem fun reference hmem =>
    absurd (hzero reference) (Nat.ne_of_gt ((hlive reference).mp hmem))
  rw [hcard, hempty, Finset.card_empty]

/-! ## §3. Calls -/

/-- What can be asked of a registry. -/
inductive Call where
  | register (code : String) (path? : Option String)
  | release (reference : String)
  | isLive (reference : String)
  deriving DecidableEq

/-- What a call answers. -/
inductive Answer where
  | reference (reference : String)
  | nothing
  | live (isLive : Bool)
  deriving DecidableEq

namespace Call

/-- The reference that a call is about. -/
def reference : Call → String
  | .register code path? => referenceOf code path?
  | .release reference => reference
  | .isLive reference => reference

/-- The number of a reference behind a call about it. -/
def counted : Call → Nat → Nat
  | .register _ _, number => number + 1
  | .release _, number => number - 1
  | .isLive _, number => number

end Call

/-- Answer a call. -/
def step (registry : Registry) : Call → Answer × Registry
  | .register code path? =>
    let (reference, registry) := registry.register code path?
    (.reference reference, registry)
  | .release reference => (.nothing, registry.release reference)
  | .isLive reference => (.live (registry.isLive reference), registry)

/-- The registry behind some calls. -/
def run (registry : Registry) (calls : List Call) : Registry :=
  calls.foldl (fun registry call => (registry.step call).2) registry

/-- How often a reference has been given out and not given back, as the calls tell it. -/
def tally (reference : String) (calls : List Call) : Nat :=
  calls.foldl (fun number call => if call.reference = reference then call.counted number else number) 0

/-- A call changes the count of its reference, and no other one. -/
theorem count_step (registry : Registry) (call : Call) (reference : String) :
    (registry.step call).2.count reference
      = if call.reference = reference then call.counted (registry.count reference)
        else registry.count reference := by
  cases call with
  | register code path? =>
    show (registry.add (referenceOf code path?)).count reference
      = if referenceOf code path? = reference then registry.count reference + 1 else _
    rw [count_add]
    split <;> rfl
  | release returned =>
    show (registry.release returned).count reference
      = if returned = reference then registry.count reference - 1 else _
    rw [count_release]
    split <;> rfl
  | isLive asked =>
    show registry.count reference = if asked = reference then registry.count reference else _
    rw [ite_self]

theorem Tidy.step (h : registry.Tidy) (call : Call) : (registry.step call).2.Tidy := by
  cases call with
  | register code path? => exact h.add _
  | release reference => exact h.release reference
  | isLive reference => exact h

/-- A call leaves the entries of all other references alone. -/
theorem Tidy.getElem?_step_of_ne (h : registry.Tidy) {call : Call} {reference : String}
    (hne : call.reference ≠ reference) :
    (registry.step call).2.counts[reference]? = registry.counts[reference]? := by
  rw [(h.step call).getElem?_counts, h.getElem?_counts, count_step, if_neg hne]

/-! ## §4. Runs -/

theorem count_run (registry : Registry) (calls : List Call) (reference : String) :
    (registry.run calls).count reference
      = calls.foldl
          (fun number call => if call.reference = reference then call.counted number else number)
          (registry.count reference) := by
  unfold run
  induction calls generalizing registry with
  | nil => rfl
  | cons call calls ih => rw [List.foldl_cons, ih, count_step, List.foldl_cons]

theorem Tidy.run (h : registry.Tidy) (calls : List Call) : (registry.run calls).Tidy := by
  unfold Registry.run
  induction calls generalizing registry with
  | nil => exact h
  | cons call calls ih => exact ih (h.step call)

/-- A registry counts as some calls tell it, and nothing is left in it beside the counts. -/
structure CountsAs (registry : Registry) (calls : List Call) : Prop where
  count_eq : ∀ reference, registry.count reference = tally reference calls
  /-- The table has the positive counts in it, and nothing else. -/
  entry_eq : ∀ reference, registry.counts[reference]?
    = if tally reference calls = 0 then none else some (tally reference calls)
  /-- The question whether a reference is live is answered by its count. -/
  answer_isLive : ∀ reference,
    (registry.step (.isLive reference)).1 = .live (decide (0 < tally reference calls))
  liveCount_eq : ∃ live : Finset String,
    (∀ reference, reference ∈ live ↔ 0 < tally reference calls) ∧ registry.liveCount = live.card
  /-- The next call leaves the entries of all references alone but that of its own. -/
  entry_step_of_ne : ∀ (call : Call) (reference : String), call.reference ≠ reference →
    (registry.step call).2.counts[reference]? = registry.counts[reference]?
  /-- A question changes nothing. -/
  step_isLive : ∀ reference, (registry.step (.isLive reference)).2 = registry
  /-- Nor does it change anything to give back what is not live. -/
  step_release : ∀ reference, tally reference calls = 0 →
    (registry.step (.release reference)).2 = registry

/-- **A registry is a saturating multiset**, behind every run of calls on a new one. -/
theorem countsAs_of_run (calls : List Call) : (empty.run calls).CountsAs calls := by
  have htidy : (empty.run calls).Tidy := tidy_empty.run calls
  have hcount : ∀ reference, (empty.run calls).count reference = tally reference calls := by
    intro reference
    rw [count_run, count_empty, tally]
  refine {
    count_eq := hcount
    entry_eq := fun reference => ?_
    answer_isLive := fun reference => ?_
    liveCount_eq := ?_
    entry_step_of_ne := fun call reference hne => htidy.getElem?_step_of_ne hne
    step_isLive := fun reference => rfl
    step_release := fun reference hzero => htidy.release_eq_self ((hcount reference).trans hzero) }
  · rw [htidy.getElem?_counts, hcount]
  · show Answer.live (decide (0 < (empty.run calls).count reference)) = _
    rw [hcount]
  · obtain ⟨live, hlive, hcard⟩ := htidy.liveCount_eq_card
    exact ⟨live, fun reference => by rw [hlive, hcount], hcard⟩

/-- A reference that has been given back too early is live when it is given out. -/
example : tally (referenceOf "x;" none) [.release (referenceOf "x;" none), .register "x;" none] = 1 := by
  decide +kernel

end LivePreview.Module.Registry
