/-
  LivePreview.Proofs.Lowering.Sites.Tally
  ───────────────────────────────────────
  **Placeholders appear in the order in which their numbers are given out.**

  A step of emission gives out numbers to specifiers, and the code that it yields holds
  the numbers that have been given out meanwhile.  They are in order if each one either
  is the next that has not appeared yet, or has been given out before (`InOrder`), since
  a piece of code may be copied but is never dropped:

      specifiers   a b c            the code   … 0 … 1 … 0 … 2 …

  So the specifiers at the placeholders, later repetitions apart, are those that have
  been given numbers, in the same order (`InOrder.eraseDups_eq`); and they are the
  imports, because a specifier is entered among these when it first gets a number
  (`State.Tallied`).

  A step *tallies* if it keeps the imports in accord with the specifiers and yields code
  whose numbers are in order; a quiet step yields none (`Tallies`).  The contract is
  closed under the ways in which the rules put steps together.  A draft is *orderly* if it
  and all drafts in it tally (`Draft.Orderly`), and what is assembled from such drafts
  tallies again (`tallies_assemble`).  The literal of an import gets its number before
  anything else of the import is emitted.  It comes first among the placeholders
  nevertheless, since the drafts in front of it are quiet (`tallies_assemble_replaceFirst`).
-/
import LivePreview.Lowering.Basic
import LivePreview.Lowering.Draft
import LivePreview.Proofs.Lowering.Emit
import LivePreview.Proofs.Result

namespace LivePreview.Lowering

open LivePreview.Syntax (Node)

section Steps

/-! ## §1. Numbers in code -/

/-- The number of a placeholder. -/
def Piece.number? : Piece → Option Nat
  | .char _ => none
  | .site number => some number

namespace Code

/-- The numbers of the placeholders, in order. -/
def numbers (code : Code) : List Nat :=
  code.filterMap Piece.number?

/-- The numbers of the placeholders in codes, in order. -/
def numbersOf (codes : List Code) : List Nat :=
  codes.flatMap numbers

@[simp] theorem numbers_nil : numbers [] = [] := rfl

@[simp] theorem numbers_site (number : Nat) : numbers [.site number] = [number] := rfl

@[simp] theorem numbers_append (code other : Code) :
    numbers (code ++ other) = code.numbers ++ other.numbers :=
  List.filterMap_append

@[simp] theorem numbers_ofText (text : String) : (ofText text).numbers = [] := by
  unfold ofText numbers
  rw [List.filterMap_map]
  exact List.filterMap_eq_nil_iff.mpr fun _ _ => rfl

@[simp] theorem numbersOf_nil : numbersOf [] = [] := rfl

@[simp] theorem numbersOf_cons (code : Code) (codes : List Code) :
    numbersOf (code :: codes) = code.numbers ++ numbersOf codes :=
  List.flatMap_cons

@[simp] theorem numbersOf_append (codes others : List Code) :
    numbersOf (codes ++ others) = numbersOf codes ++ numbersOf others :=
  List.flatMap_append

/-- A separator holds no placeholders. -/
@[simp] theorem numbers_joinWith (separator : String) (codes : List Code) :
    (joinWith separator codes).numbers = numbersOf codes := by
  induction codes with
  | nil => rfl
  | cons first codes ih =>
    cases codes with
    | nil => simp [joinWith]
    | cons second codes => simp [joinWith, ih]

end Code

/-! ## §2. Numbers in order -/

/-- Of the numbers below the last one, those below the first one have been given out before; each of
the others appears in its turn, and whatever has been given out may appear again. -/
inductive InOrder : Nat → List Nat → Nat → Prop
  | nil (n : Nat) : InOrder n [] n
  | next {n m : Nat} {numbers : List Nat} (hrest : InOrder (n + 1) numbers m) :
    InOrder n (n :: numbers) m
  | again {n m k : Nat} {numbers : List Nat} (hlt : k < n) (hrest : InOrder n numbers m) :
    InOrder n (k :: numbers) m

theorem InOrder.append {a b c : Nat} {first second : List Nat} (h : InOrder a first b)
    (h' : InOrder b second c) : InOrder a (first ++ second) c := by
  induction h with
  | nil n => exact h'
  | next _ ih => exact .next (ih h')
  | again hlt _ ih => exact .again hlt (ih h')

theorem InOrder.le {n m : Nat} {numbers : List Nat} (h : InOrder n numbers m) : n ≤ m := by
  induction h with
  | nil n => exact Nat.le_refl n
  | next _ ih => omega
  | again _ _ ih => exact ih

theorem InOrder.lt {n m : Nat} {numbers : List Nat} (h : InOrder n numbers m) :
    ∀ number ∈ numbers, number < m := by
  induction h with
  | nil n => exact nofun
  | next hrest ih => exact List.forall_mem_cons.mpr ⟨hrest.le, ih⟩
  | again hlt hrest ih => exact List.forall_mem_cons.mpr ⟨Nat.lt_of_lt_of_le hlt hrest.le, ih⟩

/-- Numbers that have all been given out before. -/
theorem inOrder_of_forall_lt {n : Nat} {numbers : List Nat} (h : ∀ number ∈ numbers, number < n) :
    InOrder n numbers n := by
  induction numbers with
  | nil => exact .nil n
  | cons number numbers ih =>
    obtain ⟨hlt, hrest⟩ := List.forall_mem_cons.mp h
    exact .again hlt (ih hrest)

section EraseDups

variable {α : Type} [BEq α] [LawfulBEq α]

theorem eraseDups_append_of_subset {xs ys : List α} (h : ys ⊆ xs) :
    (xs ++ ys).eraseDups = xs.eraseDups := by
  have hnone : ys.removeAll xs = [] := by
    unfold List.removeAll
    rw [List.filter_eq_nil_iff]
    intro y hy
    simpa using h hy
  rw [List.eraseDups_append, hnone, List.eraseDups_nil, List.append_nil]

/-- What comes last counts only if it is new. -/
theorem eraseDups_concat (xs : List α) (x : α) :
    (xs ++ [x]).eraseDups
      = if xs.eraseDups.contains x then xs.eraseDups else xs.eraseDups ++ [x] := by
  have hmem : xs.eraseDups.contains x = true ↔ x ∈ xs := by
    rw [List.contains_iff_mem, List.mem_eraseDups]
  split
  · next hknown =>
    exact eraseDups_append_of_subset (List.cons_subset.mpr ⟨hmem.mp hknown, List.nil_subset _⟩)
  · next hnew =>
    have hself : [x].removeAll xs = [x] := by
      have hnotMem : x ∉ xs := fun h => hnew (hmem.mpr h)
      simp [List.removeAll, hnotMem]
    rw [List.eraseDups_append, hself]
    rfl

/-- A repetition of what stands further in front does not count. -/
theorem eraseDups_append_cons_of_mem {xs ys : List α} {x : α} (h : x ∈ xs) :
    (xs ++ x :: ys).eraseDups = (xs ++ ys).eraseDups := by
  have hfirst : (xs ++ [x]).eraseDups = xs.eraseDups :=
    eraseDups_append_of_subset (List.cons_subset.mpr ⟨h, List.nil_subset _⟩)
  have hsame : ys.removeAll (xs ++ [x]) = ys.removeAll xs := by
    unfold List.removeAll
    refine List.filter_congr fun y _ => ?_
    by_cases heq : y = x
    · simp [heq, h]
    · simp [heq]
  rw [show xs ++ x :: ys = (xs ++ [x]) ++ ys by simp, List.eraseDups_append, hfirst, hsame,
    ← List.eraseDups_append]

omit [LawfulBEq α] in
theorem head?_eraseDups (xs : List α) : xs.eraseDups.head? = xs.head? := by
  cases xs with
  | nil => rfl
  | cons x xs => rw [List.eraseDups_cons, List.head?_cons, List.head?_cons]

/-- Without repetitions an element is erased together with all that are equal to it. -/
theorem erase_eraseDups (xs : List α) (x : α) :
    xs.eraseDups.erase x = (xs.filter (!· == x)).eraseDups := by
  -- by recursion on the length, since `eraseDups` goes on with a filtered tail
  match xs with
  | [] => rfl
  | y :: ys =>
    have hlength : (ys.filter (!· == y)).length ≤ ys.length := List.length_filter_le _ _
    have ih := erase_eraseDups (ys.filter (!· == y)) x
    rw [List.eraseDups_cons]
    by_cases heq : y = x
    · rw [heq, List.erase_cons_head, List.filter_cons_of_neg (by simp)]
    · rw [List.erase_cons_tail (by simpa using heq), ih, List.filter_cons_of_pos (by simpa using heq),
        List.eraseDups_cons, List.filter_filter, List.filter_filter]
      simp only [Bool.and_comm]
  termination_by xs.length
  decreasing_by
    rw [List.length_cons]
    omega

end EraseDups

/-- **Repetitions apart, the specifiers of numbers in order are those that have been given out.** -/
theorem InOrder.eraseDups_eq {n m : Nat} {numbers : List Nat} (h : InOrder n numbers m)
    {specifiers : List Text} (hm : m ≤ specifiers.length) :
    (specifiers.take n ++ numbers.filterMap (specifiers[·]?)).eraseDups
      = (specifiers.take m).eraseDups := by
  -- induction on the order; the specifiers in front are those whose numbers have been given out
  induction h with
  | nil n => rw [List.filterMap_nil, List.append_nil]
  | @next n m numbers hrest ih =>
    have hlt : n < specifiers.length := Nat.lt_of_lt_of_le hrest.le hm
    -- the next specifier moves from the placeholders to those in front
    rw [List.filterMap_cons_some (List.getElem?_eq_getElem hlt), ← ih hm,
      List.take_succ_eq_append_getElem hlt, List.append_assoc]
    rfl
  | @again n m k numbers hlt hrest ih =>
    have hlength : k < specifiers.length :=
      Nat.lt_of_lt_of_le (Nat.lt_of_lt_of_le hlt hrest.le) hm
    have hmem : specifiers[k] ∈ specifiers.take n := List.mem_take_iff_getElem.mpr ⟨k, by omega, rfl⟩
    rw [List.filterMap_cons_some (List.getElem?_eq_getElem hlength), eraseDups_append_cons_of_mem hmem,
      ih hm]

/-! ## §3. The contract of a step -/

/-- The imports are the specifiers that have got numbers, each once. -/
def State.Tallied (state : State) : Prop :=
  state.imports = state.sites.eraseDups

/-- The numbers are in order, and there are none if the step is quiet. -/
structure Counted (loud : Bool) (n : Nat) (numbers : List Nat) (m : Nat) : Prop where
  inOrder : InOrder n numbers m
  eq_nil : loud = false → numbers = []

/-- Numbers that have been given out by now, and none if the step is quiet. -/
structure Earlier (loud : Bool) (n : Nat) (numbers : List Nat) : Prop where
  lt : ∀ number ∈ numbers, number < n
  eq_nil : loud = false → numbers = []

section Counted

variable {loud : Bool} {n m : Nat} {numbers : List Nat}

theorem Counted.earlier (h : Counted loud n numbers m) : Earlier loud m numbers :=
  ⟨h.inOrder.lt, h.eq_nil⟩

theorem Counted.append {k : Nat} {others : List Nat} (h : Counted loud n numbers m)
    (h' : Counted loud m others k) : Counted loud n (numbers ++ others) k :=
  ⟨h.inOrder.append h'.inOrder, fun hquiet => by rw [h.eq_nil hquiet, h'.eq_nil hquiet]; rfl⟩

theorem Counted.mono (h : Counted loud n numbers m) {other : Bool} (hloud : loud = true → other = true) :
    Counted other n numbers m := by
  refine ⟨h.inOrder, fun hquiet => h.eq_nil ?_⟩
  cases loud with
  | false => rfl
  | true => exact absurd (hloud rfl) (by simp [hquiet])

theorem Counted.eq_of_quiet (h : Counted false n numbers m) : numbers = [] ∧ n = m := by
  obtain rfl := h.eq_nil rfl
  cases h.inOrder
  exact ⟨rfl, rfl⟩

theorem Earlier.counted (h : Earlier loud n numbers) : Counted loud n numbers n :=
  ⟨inOrder_of_forall_lt h.lt, h.eq_nil⟩

theorem Earlier.mono (h : Earlier loud n numbers) {k : Nat} (hk : n ≤ k) : Earlier loud k numbers :=
  ⟨fun number hmem => Nat.lt_of_lt_of_le (h.lt number hmem) hk, h.eq_nil⟩

theorem earlier_nil : Earlier loud n [] :=
  ⟨nofun, fun _ => rfl⟩

end Counted

variable {α β : Type} {loud : Bool} {count : Nat} {front : List Nat}

/-- From a state with at least `count` specifiers, the step yields something whose numbers are the
given ones in front and behind them, in order, those that have been given out meanwhile. -/
def Tallies (count : Nat) (front : List Nat) (numbers : α → List Nat) (loud : Bool) (step : Emit α) :
    Prop :=
  ∀ before a after, count ≤ before.sites.length → before.Tallied → step.run before = .ok (a, after) →
    after.Tallied ∧ ∃ own, numbers a = front ++ own
      ∧ Counted loud before.sites.length own after.sites.length

/-- The step gives out no numbers, and what it yields satisfies `P`. -/
def Silent (step : Emit α) (P : α → Prop) : Prop :=
  ∀ before a after, before.Tallied → step.run before = .ok (a, after) →
    after.Tallied ∧ after.sites.length = before.sites.length ∧ P a

section Tallies

variable {numbers : α → List Nat} {out : β → List Nat} {step : Emit α} {next : α → Emit β}

theorem Tallies.mono (h : Tallies count front numbers loud step) {k : Nat} (hk : count ≤ k) :
    Tallies k front numbers loud step :=
  fun before a after hcount => h before a after (Nat.le_trans hk hcount)

theorem Tallies.mono_loud (h : Tallies count front numbers loud step) {other : Bool}
    (hloud : loud = true → other = true) : Tallies count front numbers other step := by
  intro before a after hcount htallied hrun
  obtain ⟨hafter, own, hnumbers, hcounted⟩ := h before a after hcount htallied hrun
  exact ⟨hafter, own, hnumbers, hcounted.mono hloud⟩

theorem tallies_throw {failure : Failure} : Tallies count front numbers loud (throw failure) := by
  intro before a after hcount htallied hrun
  cases hrun

/-- What is yielded may hold copies of what has been emitted. -/
theorem tallies_pure_of_earlier {a : α} {own : List Nat} (hnumbers : numbers a = front ++ own)
    (hearlier : Earlier loud count own) : Tallies count front numbers loud (pure a) := by
  intro before b after hcount htallied hrun
  cases hrun
  exact ⟨htallied, own, hnumbers, (hearlier.mono hcount).counted⟩

theorem tallies_pure {a : α} (hnumbers : numbers a = front) :
    Tallies count front numbers loud (pure a) :=
  tallies_pure_of_earlier (hnumbers.trans (List.append_nil front).symm) earlier_nil

/-- One step behind another one: the numbers of the first one stand in front. -/
theorem Tallies.bind (hstep : Tallies count front numbers loud step)
    (hnext : ∀ k a own, count ≤ k → numbers a = front ++ own → Earlier loud k own →
      Tallies k (numbers a) out loud (next a)) :
    Tallies count front out loud (step >>= next) := by
  intro before b after hcount htallied hrun
  rw [StateT.run_bind] at hrun
  obtain ⟨⟨a, between⟩, hfirst, hrest⟩ := Result.bind_eq_ok_iff.mp hrun
  obtain ⟨hbetween, own, hnumbers, hcounted⟩ := hstep before a between hcount htallied hfirst
  -- what the first step has given out counts as earlier for the second one
  have hle := hcounted.inOrder.le
  obtain ⟨hafter, others, hout, hcounted'⟩ :=
    hnext between.sites.length a own (Nat.le_trans hcount hle) hnumbers hcounted.earlier
      between b after (Nat.le_refl _) hbetween hrest
  refine ⟨hafter, own ++ others, ?_, hcounted.append hcounted'⟩
  rw [hout, hnumbers, List.append_assoc]

/-- Something is made of what a step yields. -/
theorem Tallies.map (hstep : Tallies count [] numbers loud step) {f : α → β}
    (hf : ∀ a, out (f a) = front ++ numbers a) :
    Tallies count front out loud (step >>= fun a => pure (f a)) := by
  intro before b after hcount htallied hrun
  rw [StateT.run_bind] at hrun
  obtain ⟨⟨a, between⟩, hfirst, hrest⟩ := Result.bind_eq_ok_iff.mp hrun
  cases hrest
  obtain ⟨hbetween, own, hnumbers, hcounted⟩ := hstep before a between hcount htallied hfirst
  rw [List.nil_append] at hnumbers
  exact ⟨hbetween, own, by rw [hf, hnumbers], hcounted⟩

/-- What a step yields is taken together with something in front. -/
theorem Tallies.behind (hstep : Tallies count [] numbers loud step) (front : List Nat) :
    Tallies count front (fun a => front ++ numbers a) loud step := by
  intro before a after hcount htallied hrun
  obtain ⟨hafter, own, hnumbers, hcounted⟩ := hstep before a after hcount htallied hrun
  rw [List.nil_append] at hnumbers
  exact ⟨hafter, own, congrArg (front ++ ·) hnumbers, hcounted⟩

/-- Copies of what has been emitted before the step may stand in front of what it yields. -/
theorem Tallies.of_earlier {copies : List Nat} (hstep : Tallies count copies numbers loud step)
    (hearlier : Earlier loud count copies) : Tallies count [] numbers loud step := by
  intro before a after hcount htallied hrun
  obtain ⟨hafter, own, hnumbers, hcounted⟩ := hstep before a after hcount htallied hrun
  exact ⟨hafter, copies ++ own, hnumbers, (hearlier.mono hcount).counted.append hcounted⟩

/-! ## §4. Silent steps -/

theorem Silent.bind {P : α → Prop} (hstep : Silent step P)
    (hnext : ∀ a, P a → Tallies count front out loud (next a)) :
    Tallies count front out loud (step >>= next) := by
  intro before b after hcount htallied hrun
  rw [StateT.run_bind] at hrun
  obtain ⟨⟨a, between⟩, hfirst, hrest⟩ := Result.bind_eq_ok_iff.mp hrun
  obtain ⟨hbetween, hlength, hP⟩ := hstep before a between htallied hfirst
  rw [← hlength] at hcount ⊢
  exact hnext a hP between b after hcount hbetween hrest

/-- A step that gives out no numbers is silent. -/
theorem Tallies.silent (hstep : Tallies 0 [] numbers false step) :
    Silent step fun a => numbers a = [] := by
  intro before a after htallied hrun
  obtain ⟨hafter, own, hnumbers, hcounted⟩ := hstep before a after (Nat.zero_le _) htallied hrun
  obtain ⟨rfl, hlength⟩ := hcounted.eq_of_quiet
  exact ⟨hafter, hlength.symm, hnumbers⟩

theorem silent_throw {failure : Failure} {P : α → Prop} : Silent (throw failure : Emit α) P := by
  intro before a after htallied hrun
  cases hrun

theorem silent_demand {a? : Option α} : Silent (demand a?) fun a => a? = some a := by
  intro before a after htallied hrun
  cases a? with
  | none => cases hrun
  | some found =>
    cases hrun
    exact ⟨htallied, rfl, rfl⟩

theorem silent_lift {result : Except Failure α} :
    Silent (liftM result : Emit α) fun a => result = .ok a := by
  intro before a after htallied hrun
  cases result with
  | error failure => cases hrun
  | ok found =>
    cases hrun
    exact ⟨htallied, rfl, rfl⟩

theorem silent_modify {f : State → State} (hsites : ∀ state, (f state).sites = state.sites)
    (himports : ∀ state, (f state).imports = state.imports) :
    Silent (modify f : Emit PUnit) fun _ => True := by
  intro before a after htallied hrun
  cases hrun
  refine ⟨?_, by rw [hsites], trivial⟩
  unfold State.Tallied
  rw [himports, hsites]
  exact htallied

theorem silent_reject {context : Context} {node : Node} {cause : Cause} {P : α → Prop} :
    Silent (reject context node cause : Emit α) P :=
  silent_throw

theorem tallies_reject {context : Context} {node : Node} {cause : Cause} :
    Tallies count front numbers loud (reject context node cause) :=
  tallies_throw

end Tallies

/-! ## §5. Recording an import -/

/-- An import that is recorded stays in accord with its specifier, which gets the next number. -/
theorem recordImport_eq_ok {specifier : Text} {before after : State} {code : Code}
    (hrun : (recordImport specifier).run before = .ok (code, after)) (htallied : before.Tallied) :
    after.Tallied ∧ after.sites = before.sites ++ [specifier]
      ∧ code = [.site before.sites.length] := by
  let entered : State :=
    if before.imports.contains specifier then before
    else { before with imports := before.imports ++ [specifier] }
  have hsites : entered.sites = before.sites := by
    unfold entered
    split <;> rfl
  have himports : entered.imports = (before.sites ++ [specifier]).eraseDups := by
    rw [eraseDups_concat, ← htallied]
    unfold entered
    split <;> rfl
  -- the placeholder is made when the import has been entered
  have hstate : (recordImport specifier).run before
      = .ok ([.site entered.sites.length],
          { entered with sites := entered.sites ++ [specifier] }) := rfl
  cases hstate.symm.trans hrun
  refine ⟨?_, congrArg (· ++ [specifier]) hsites, by rw [hsites]⟩
  show entered.imports = (entered.sites ++ [specifier]).eraseDups
  rw [himports, hsites]

/-- A step behind a recorded import, whose number stands in front of all others. -/
theorem tallies_recordImport_bind {specifier : Text} {next : Code → Emit α} {numbers : α → List Nat}
    (hnext : ∀ number, Tallies 0 [number] numbers true (next [.site number])) :
    Tallies count [] numbers true (recordImport specifier >>= next) := by
  intro before a after hcount htallied hrun
  rw [StateT.run_bind] at hrun
  obtain ⟨⟨code, between⟩, hfirst, hrest⟩ := Result.bind_eq_ok_iff.mp hrun
  obtain ⟨hbetween, hsites, rfl⟩ := recordImport_eq_ok hfirst htallied
  obtain ⟨hafter, own, hnumbers, hcounted⟩ :=
    hnext before.sites.length between a after (Nat.zero_le _) hbetween hrest
  have hlength : between.sites.length = before.sites.length + 1 := by
    rw [hsites, List.length_append, List.length_singleton]
  rw [hlength] at hcounted
  exact ⟨hafter, before.sites.length :: own, hnumbers, .next hcounted.inOrder, nofun⟩

end Steps

section Drafts

variable {loud : Bool} {front : List Nat}

namespace Draft

/-! ## §6. Orderly drafts -/

/-- The draft and all drafts in it are those of a node and of the nodes in it, and their steps
tally. -/
inductive Orderly (loud : Bool) : Draft → Prop where
  | intro {draft : Draft} (hnodes : draft.children.map Draft.node = draft.node.children)
    (hchildren : ∀ child ∈ draft.children, Orderly loud child)
    (hemission : Tallies 0 [] Code.numbers loud draft.emission) : Orderly loud draft

theorem Orderly.nodes_eq {draft : Draft} (h : draft.Orderly loud) :
    draft.children.map Draft.node = draft.node.children := by
  cases h with
  | intro hnodes _ _ => exact hnodes

theorem Orderly.children {draft : Draft} (h : draft.Orderly loud) :
    ∀ child ∈ draft.children, child.Orderly loud := by
  cases h with
  | intro _ hchildren _ => exact hchildren

theorem Orderly.emission {draft : Draft} (h : draft.Orderly loud) :
    Tallies 0 [] Code.numbers loud draft.emission := by
  cases h with
  | intro _ _ hemission => exact hemission

theorem Orderly.mono {draft : Draft} (h : draft.Orderly loud) {other : Bool}
    (hloud : loud = true → other = true) : draft.Orderly other := by
  induction h with
  | intro hnodes _ hemission ih => exact .intro hnodes ih (hemission.mono_loud hloud)

/-- All drafts of the list are orderly. -/
def AllOrderly (loud : Bool) (drafts : List Draft) : Prop :=
  ∀ draft ∈ drafts, draft.Orderly loud

theorem AllOrderly.named {drafts : List Draft} (h : AllOrderly loud drafts) :
    AllOrderly loud (named drafts) :=
  fun draft hdraft => h draft (List.mem_filter.mp hdraft).1

/-! ## §7. Exchanged steps -/

/-- The steps of all drafts of the list tally. -/
def Tallying (loud : Bool) (drafts : List Draft) : Prop :=
  ∀ draft ∈ drafts, Tallies 0 [] Code.numbers loud draft.emission

theorem AllOrderly.tallying {drafts : List Draft} (h : AllOrderly loud drafts) :
    Tallying loud drafts :=
  fun draft hdraft => (h draft hdraft).emission

theorem Tallying.replaceFirst {drafts : List Draft} (h : Tallying loud drafts) {p : Draft → Bool}
    {f : Draft → Emit Code} (hf : ∀ draft ∈ drafts, Tallies 0 [] Code.numbers loud (f draft)) :
    Tallying loud (replaceFirst p f drafts) :=
  forall_replaceFirst h fun draft hdraft => hf draft (List.mem_of_find?_eq_some hdraft)

theorem Tallying.replaceEach {drafts : List Draft} (h : Tallying loud drafts) {p : Draft → Bool}
    {f : Draft → Emit Code} (hf : ∀ draft ∈ drafts, Tallies 0 [] Code.numbers loud (f draft)) :
    Tallying loud (replaceEach p f drafts) :=
  forall_replaceEach h fun draft hdraft _ => hf draft hdraft

/-! ## §8. Assembly -/

theorem tallies_assembleFrom {source : String} {stop position : Nat} {drafts : List Draft}
    (h : Tallying loud drafts) :
    Tallies 0 [] Code.numbers loud (assembleFrom source stop position drafts) := by
  induction drafts generalizing position with
  | nil => exact tallies_pure (Code.numbers_ofText _)
  | cons draft drafts ih =>
    obtain ⟨hdraft, hrest⟩ := List.forall_mem_cons.mp h
    unfold assembleFrom
    refine hdraft.bind fun k code own _ _ _ => ?_
    exact ((ih hrest).mono (Nat.zero_le k)).map fun rest => by simp

/-- A node that is assembled from its source and its children tallies. -/
theorem tallies_assemble {context : Context} {node : Node} {children : List Draft}
    (h : Tallying loud children) : Tallies 0 [] Code.numbers loud (assemble context node children) := by
  unfold assemble
  split
  · exact tallies_pure (Code.numbers_ofText _)
  · exact tallies_assembleFrom h

theorem tallies_dropTokens {context : Context} {kinds : List String} {node : Node}
    {children : List Draft} (h : Tallying loud children) :
    Tallies 0 [] Code.numbers loud (dropTokens context kinds node children) :=
  tallies_assemble (h.replaceEach fun _ _ => tallies_pure Code.numbers_nil)

/-! ## §9. What gets its number first -/

/-- The drafts in front of the first one that satisfies a condition. -/
def inFrontOf (p : Draft → Bool) (drafts : List Draft) : List Draft :=
  drafts.takeWhile (!p ·)

theorem tallies_assembleFrom_replaceFirst {source : String} {stop position : Nat}
    {p : Draft → Bool} {f : Draft → Emit Code} {drafts : List Draft} {found : Draft}
    (h : Tallying true drafts) (hquiet : Tallying false (inFrontOf p drafts))
    (hfound : drafts.find? p = some found) (hf : Tallies 0 front Code.numbers true (f found)) :
    Tallies 0 front Code.numbers true
      (assembleFrom source stop position (replaceFirst p f drafts)) := by
  induction drafts generalizing position with
  | nil => cases hfound
  | cons draft drafts ih =>
    obtain ⟨hdraft, hrest⟩ := List.forall_mem_cons.mp h
    unfold replaceFirst
    cases hp : p draft with
    | true =>
      rw [List.find?_cons_of_pos hp] at hfound
      cases hfound
      rw [if_pos rfl]
      unfold assembleFrom
      refine hf.bind fun k code own _ _ _ => ?_
      exact ((tallies_assembleFrom hrest).mono (Nat.zero_le k)).map fun rest => by simp
    | false =>
      have hneg : ¬ p draft = true := by rw [hp]; exact Bool.false_ne_true
      rw [List.find?_cons_of_neg hneg] at hfound
      unfold inFrontOf at hquiet ih
      rw [List.takeWhile_cons_of_pos (by rw [hp]; rfl)] at hquiet
      obtain ⟨hdraftQuiet, hrestQuiet⟩ := List.forall_mem_cons.mp hquiet
      rw [if_neg Bool.false_ne_true]
      unfold assembleFrom
      -- nothing is given out by a draft in front, so the given numbers stay the first ones
      refine hdraftQuiet.silent.bind fun code hcode => ?_
      refine (ih hrest hrestQuiet hfound).bind fun k rest own _ _ _ => tallies_pure ?_
      simp [hcode]

/-- A node whose first child of some sort emits what has its number already. -/
theorem tallies_assemble_replaceFirst {context : Context} {node : Node} {p : Draft → Bool}
    {f : Draft → Emit Code} {children : List Draft} {found : Draft} (h : Tallying true children)
    (hquiet : Tallying false (inFrontOf p children)) (hfound : children.find? p = some found)
    (hf : Tallies 0 front Code.numbers true (f found)) :
    Tallies 0 front Code.numbers true (assemble context node (replaceFirst p f children)) := by
  -- the node is assembled from drafts, since one of them has been found
  have hempty : (replaceFirst p f children).isEmpty = false := by
    cases children with
    | nil => cases hfound
    | cons draft drafts =>
      unfold replaceFirst
      split <;> rfl
  unfold assemble
  rw [if_neg (by rw [hempty]; exact Bool.false_ne_true)]
  exact tallies_assembleFrom_replaceFirst h hquiet hfound hf

end Draft

end Drafts

end LivePreview.Lowering
