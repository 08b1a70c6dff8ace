/-
  LivePreview.Proofs.Lowering.Emit
  ────────────────────────────────
  **What a step of emission promises.**

  A step may only add specifiers, and records every specifier that it adds among the
  imports (`State.Extends`).  `Ensures count step R` says that it keeps to this from
  every state with at least `count` specifiers, and that what it yields satisfies `R`
  with the number of specifiers behind it.  The rules for sequences (`Ensures.bind`)
  and for the basic steps are all that the rules for nodes need.

  Code *fits* if its placeholders have specifiers and it holds no NUL, provided that
  the source and the options hold none (`Code.Fits`).  A rule may reach several levels
  down, so it needs to know of its drafts that all the drafts in them emit code that fits
  as well (`Draft.Proper`).  What a rule assembles from such drafts fits
  (`ensures_assemble`), also when the steps of some have been exchanged for others that
  emit code that fits (`Emitting.replaceFirst`, `Emitting.replaceEach`).
-/
import LivePreview.Lowering.Draft
import LivePreview.Proofs.Lowering.Code

namespace LivePreview.Lowering

open LivePreview.Syntax (Node)

section Steps

variable {α β : Type} {count : Nat}

/-! ## §1. Promises -/

/-- Specifiers are only added, and all of them are imports if they were before. -/
structure State.Extends (before after : State) : Prop where
  length_le : before.sites.length ≤ after.sites.length
  recorded : before.sites ⊆ before.imports → after.sites ⊆ after.imports

theorem State.Extends.refl (state : State) : state.Extends state :=
  ⟨Nat.le_refl _, id⟩

theorem State.Extends.trans {a b c : State} (hab : a.Extends b) (hbc : b.Extends c) : a.Extends c :=
  ⟨Nat.le_trans hab.length_le hbc.length_le, fun h => hbc.recorded (hab.recorded h)⟩

/-- What the step yields from a state with at least `count` specifiers satisfies `R` with the
number of specifiers behind it. -/
def Ensures (count : Nat) (step : Emit α) (R : Nat → α → Prop) : Prop :=
  ∀ before a after, count ≤ before.sites.length → step.run before = .ok (a, after) →
    before.Extends after ∧ R after.sites.length a

theorem Ensures.mono {step : Emit α} {R : Nat → α → Prop} (h : Ensures count step R) {k : Nat}
    (hk : count ≤ k) : Ensures k step R :=
  fun before a after hcount hrun => h before a after (Nat.le_trans hk hcount) hrun

theorem ensures_pure {a : α} {R : Nat → α → Prop} (h : ∀ k, count ≤ k → R k a) :
    Ensures count (pure a) R := by
  intro before b after hcount hrun
  cases hrun
  exact ⟨.refl before, h _ hcount⟩

theorem ensures_throw {failure : Failure} {R : Nat → α → Prop} :
    Ensures count (throw failure) R := by
  intro before a after hcount hrun
  cases hrun

theorem Ensures.bind {step : Emit α} {next : α → Emit β} {R : Nat → α → Prop} {Q : Nat → β → Prop}
    (hstep : Ensures count step R)
    (hnext : ∀ k a, count ≤ k → R k a → Ensures k (next a) Q) : Ensures count (step >>= next) Q := by
  intro before b after hcount hrun
  rw [StateT.run_bind] at hrun
  cases hfirst : step.run before with
  | error failure =>
    rw [hfirst] at hrun
    cases hrun
  | ok result =>
    obtain ⟨a, between⟩ := result
    rw [hfirst] at hrun
    -- the second step starts with at least the specifiers that the first one left behind
    obtain ⟨hextends, hR⟩ := hstep before a between hcount hfirst
    obtain ⟨hextends', hQ⟩ := hnext between.sites.length a
      (Nat.le_trans hcount hextends.length_le) hR between b after (Nat.le_refl _) hrun
    exact ⟨hextends.trans hextends', hQ⟩

/-- A result that does not depend on the state, or the failure in its place. -/
theorem ensures_lift {result : Except Failure α} :
    Ensures count (liftM result : Emit α) fun _ a => result = .ok a := by
  intro before a after hcount hrun
  cases result with
  | error failure => cases hrun
  | ok found =>
    cases hrun
    exact ⟨.refl before, rfl⟩

/-- A note that is neither a specifier nor an import. -/
theorem ensures_modify {f : State → State} (hsites : ∀ state, (f state).sites = state.sites)
    (himports : ∀ state, (f state).imports = state.imports) :
    Ensures count (modify f) fun _ _ => True := by
  intro before a after hcount hrun
  cases hrun
  refine ⟨⟨Nat.le_of_eq (by rw [hsites]), fun h => ?_⟩, trivial⟩
  rw [hsites, himports]
  exact h

theorem ensures_demand {a? : Option α} : Ensures count (demand a?) fun _ a => a? = some a := by
  cases a? with
  | none => exact ensures_throw
  | some a => exact ensures_pure fun _ _ => rfl

theorem ensures_reject {context : Context} {node : Node} {cause : Cause} {R : Nat → α → Prop} :
    Ensures count (reject context node cause) R :=
  ensures_throw

/-! ## §2. Code that fits -/

/-- The source and the names that elements are lowered with hold no NUL. -/
structure Context.IsClean (context : Context) : Prop where
  source : NulFree context.source
  factory : NulFree context.options.factory
  fragment : NulFree context.options.fragment

/-- From a clean context the code is clean. -/
def Code.Fits (context : Context) (count : Nat) (code : Code) : Prop :=
  context.IsClean → code.IsClean count

namespace Code

variable {context : Context} {code : Code}

theorem Fits.mono (h : code.Fits context count) {k : Nat} (hk : count ≤ k) : code.Fits context k := by
  intro hclean piece hpiece
  have hpiece := h hclean piece hpiece
  cases piece with
  | char c => exact hpiece
  | site number => exact Nat.lt_of_lt_of_le hpiece hk

theorem fits_nil : Fits context count [] := by
  intro _ piece hpiece
  cases hpiece

theorem Fits.append (h : code.Fits context count) {other : Code} (hother : other.Fits context count) :
    (code ++ other).Fits context count := by
  intro hclean piece hpiece
  rcases List.mem_append.mp hpiece with hpiece | hpiece
  · exact h hclean piece hpiece
  · exact hother hclean piece hpiece

theorem fits_ofText {text : String} (h : context.IsClean → NulFree text) :
    (ofText text).Fits context count := by
  intro hclean piece hpiece
  obtain ⟨c, hc, rfl⟩ := List.mem_map.mp hpiece
  rintro rfl
  exact h hclean hc

/-- A text that is always the same. -/
theorem fits_ofText_of_nulFree {text : String} (h : NulFree text) :
    (ofText text).Fits context count :=
  fits_ofText fun _ => h

theorem fits_slice (start stop : Nat) :
    (ofText (Node.slice context.source start stop)).Fits context count :=
  fits_ofText fun hclean => hclean.source.slice start stop

/-- All codes of the list fit. -/
def AllFit (context : Context) (count : Nat) (codes : List Code) : Prop :=
  ∀ code ∈ codes, code.Fits context count

theorem AllFit.mono {codes : List Code} (h : AllFit context count codes) {k : Nat}
    (hk : count ≤ k) : AllFit context k codes :=
  fun code hcode => (h code hcode).mono hk

theorem allFit_nil : AllFit context count [] :=
  fun _ hcode => absurd hcode List.not_mem_nil

theorem AllFit.cons {codes : List Code} (hcode : code.Fits context count)
    (hcodes : AllFit context count codes) : AllFit context count (code :: codes) :=
  List.forall_mem_cons.mpr ⟨hcode, hcodes⟩

theorem allFit_singleton (h : code.Fits context count) : AllFit context count [code] :=
  AllFit.cons h allFit_nil

theorem AllFit.append {codes others : List Code} (h : AllFit context count codes)
    (hothers : AllFit context count others) : AllFit context count (codes ++ others) :=
  fun code hcode => (List.mem_append.mp hcode).elim (h code) (hothers code)

theorem fits_joinWith {separator : String} (hsep : NulFree separator) {codes : List Code}
    (h : AllFit context count codes) : (joinWith separator codes).Fits context count := by
  induction codes with
  | nil => exact fits_nil
  | cons first codes ih =>
    obtain ⟨hfirst, hrest⟩ := List.forall_mem_cons.mp h
    cases codes with
    | nil => exact hfirst
    | cons second codes => exact (hfirst.append (fits_ofText_of_nulFree hsep)).append (ih hrest)

end Code

/-- A step whose code is all that is emitted. -/
theorem Ensures.singleton {context : Context} {step : Emit Code}
    (h : Ensures count step (Code.Fits context)) :
    Ensures count (step >>= fun code => pure [code]) (Code.AllFit context) :=
  h.bind fun _ _ _ hcode => ensures_pure fun _ hl => Code.allFit_singleton (hcode.mono hl)

theorem Context.IsClean.text {context : Context} (h : context.IsClean) (node : Node) :
    NulFree (context.text node) :=
  h.source.text node

/-- A placeholder gets the number of its specifier, which is recorded. -/
theorem ensures_recordImport (context : Context) {specifier : Text} :
    Ensures count (recordImport specifier) (Code.Fits context) := by
  intro before code after hcount hrun
  -- the specifier is recorded unless it is an import already, and gets a placeholder in any case
  have hafter : after.sites = before.sites ++ [specifier]
      ∧ before.imports ⊆ after.imports ∧ specifier ∈ after.imports
      ∧ code = [.site before.sites.length] := by
    by_cases hmem : before.imports.contains specifier = true
    · have hstate : recordImport specifier before
          = .ok ([.site before.sites.length], { before with sites := before.sites ++ [specifier] }) := by
        show (placeSite specifier).run
          (if before.imports.contains specifier then before
            else { before with imports := before.imports ++ [specifier] }) = _
        rw [if_pos hmem]
        rfl
      cases hstate.symm.trans hrun
      exact ⟨rfl, List.Subset.refl _, List.contains_iff_mem.mp hmem, rfl⟩
    · have hstate : recordImport specifier before
          = .ok ([.site before.sites.length], { before with
              imports := before.imports ++ [specifier], sites := before.sites ++ [specifier] }) := by
        show (placeSite specifier).run
          (if before.imports.contains specifier then before
            else { before with imports := before.imports ++ [specifier] }) = _
        rw [if_neg hmem]
        rfl
      cases hstate.symm.trans hrun
      exact ⟨rfl, List.subset_append_left _ _, by simp, rfl⟩
  obtain ⟨hsites, himports, hspecifier, rfl⟩ := hafter
  refine ⟨⟨by simp [hsites], fun hrecorded => ?_⟩, fun _ piece hpiece => ?_⟩
  · rw [hsites]
    intro other hother
    rcases List.mem_append.mp hother with hother | hother
    · exact himports (hrecorded hother)
    · rwa [List.mem_singleton.mp hother]
  · rw [List.mem_singleton.mp hpiece]
    show before.sites.length < after.sites.length
    simp [hsites]

end Steps

section Drafts

variable {context : Context} {count : Nat}

namespace Draft

/-! ## §3. Proper drafts -/

/-- The draft and all drafts in it emit code that fits. -/
inductive Proper (context : Context) (count : Nat) : Draft → Prop where
  | intro {draft : Draft} : (∀ child ∈ draft.children, Proper context count child) →
    Ensures count draft.emission (Code.Fits context) → Proper context count draft

theorem Proper.children {draft : Draft} (h : draft.Proper context count) :
    ∀ child ∈ draft.children, child.Proper context count := by
  cases h with
  | intro hchildren _ => exact hchildren

theorem Proper.emission {draft : Draft} (h : draft.Proper context count) :
    Ensures count draft.emission (Code.Fits context) := by
  cases h with
  | intro _ hemission => exact hemission

theorem Proper.mono {draft : Draft} (h : draft.Proper context count) {k : Nat} (hk : count ≤ k) :
    draft.Proper context k := by
  induction h with
  | intro _ hemission ih => exact .intro ih (hemission.mono hk)

/-- All drafts of the list are proper. -/
def AllProper (context : Context) (count : Nat) (drafts : List Draft) : Prop :=
  ∀ draft ∈ drafts, draft.Proper context count

theorem AllProper.mono {drafts : List Draft} (h : AllProper context count drafts) {k : Nat}
    (hk : count ≤ k) : AllProper context k drafts :=
  fun draft hdraft => (h draft hdraft).mono hk

theorem AllProper.of_subset {drafts others : List Draft} (h : AllProper context count drafts)
    (hsubset : others ⊆ drafts) : AllProper context count others :=
  fun draft hdraft => h draft (hsubset hdraft)

theorem AllProper.named {drafts : List Draft} (h : AllProper context count drafts) :
    AllProper context count (named drafts) :=
  h.of_subset fun _ hdraft => (List.mem_filter.mp hdraft).1

theorem AllProper.byField? {drafts : List Draft} (h : AllProper context count drafts)
    {name : String} {draft : Draft} (hdraft : Draft.byField? name drafts = some draft) :
    draft.Proper context count :=
  h draft (List.mem_of_find?_eq_some hdraft)

/-- A draft that is found in one of two places is in one of them. -/
theorem eq_some_or_of_orElse {α : Type} {first second : Option α} {a : α}
    (h : (first <|> second) = some a) : first = some a ∨ second = some a := by
  cases first with
  | none => exact .inr h
  | some b => exact .inl h

/-! ## §4. Exchanged steps -/

/-- What holds of all drafts holds of all when the step of the first one that satisfies a condition
is exchanged, if it holds with the new step. -/
theorem forall_replaceFirst {P : Draft → Prop} {p : Draft → Bool} {f : Draft → Emit Code}
    {drafts : List Draft} (h : ∀ draft ∈ drafts, P draft)
    (hf : ∀ draft, drafts.find? p = some draft → P (draft.withEmission (f draft))) :
    ∀ draft ∈ replaceFirst p f drafts, P draft := by
  induction drafts with
  | nil => exact h
  | cons draft drafts ih =>
    obtain ⟨hdraft, hrest⟩ := List.forall_mem_cons.mp h
    unfold replaceFirst
    split
    · next hp => exact List.forall_mem_cons.mpr ⟨hf draft (List.find?_cons_of_pos hp), hrest⟩
    · next hp =>
      refine List.forall_mem_cons.mpr ⟨hdraft, ih hrest fun found hfound => hf found ?_⟩
      rwa [List.find?_cons_of_neg hp]

theorem forall_replaceEach {P : Draft → Prop} {p : Draft → Bool} {f : Draft → Emit Code}
    {drafts : List Draft} (h : ∀ draft ∈ drafts, P draft)
    (hf : ∀ draft ∈ drafts, p draft = true → P (draft.withEmission (f draft))) :
    ∀ draft ∈ replaceEach p f drafts, P draft := by
  intro draft hdraft
  obtain ⟨original, horiginal, rfl⟩ := List.mem_map.mp hdraft
  split
  · next hp => exact hf original horiginal hp
  · exact h original horiginal

/-- All drafts of the list emit code that fits. -/
def Emitting (context : Context) (count : Nat) (drafts : List Draft) : Prop :=
  ∀ draft ∈ drafts, Ensures count draft.emission (Code.Fits context)

theorem AllProper.emitting {drafts : List Draft} (h : AllProper context count drafts) :
    Emitting context count drafts :=
  fun draft hdraft => (h draft hdraft).emission

theorem Emitting.replaceFirst {drafts : List Draft} (h : Emitting context count drafts)
    {p : Draft → Bool} {f : Draft → Emit Code}
    (hf : ∀ draft ∈ drafts, Ensures count (f draft) (Code.Fits context)) :
    Emitting context count (replaceFirst p f drafts) :=
  forall_replaceFirst h fun draft hdraft => hf draft (List.mem_of_find?_eq_some hdraft)

theorem Emitting.replaceEach {drafts : List Draft} (h : Emitting context count drafts)
    {p : Draft → Bool} {f : Draft → Emit Code}
    (hf : ∀ draft ∈ drafts, Ensures count (f draft) (Code.Fits context)) :
    Emitting context count (replaceEach p f drafts) :=
  forall_replaceEach h fun draft hdraft _ => hf draft hdraft

/-! ## §5. Nodes of drafts -/

/-- What is found among the children is found among their drafts. -/
theorem exists_find?_of_childByField? {name : String} {node child : Node} {children : List Draft}
    (hnodes : children.map Draft.node = node.children) (hchild : node.childByField? name = some child) :
    ∃ found, children.find? (hasField name) = some found ∧ found.node = child := by
  unfold Node.childByField? at hchild
  rw [← hnodes, List.find?_map] at hchild
  exact Option.map_eq_some_iff.mp hchild

theorem node_mem_children {node : Node} {drafts : List Draft}
    (hnodes : drafts.map Draft.node = node.children) {draft : Draft} (hdraft : draft ∈ drafts) :
    draft.node ∈ node.children := by
  rw [← hnodes]
  exact List.mem_map_of_mem hdraft

theorem childByField?_eq {name : String} {node : Node} {children : List Draft}
    (hnodes : children.map Draft.node = node.children) :
    node.childByField? name = (byField? name children).map Draft.node := by
  unfold Node.childByField?
  rw [← hnodes, List.find?_map]
  rfl

theorem namedChildren_eq {node : Node} {children : List Draft}
    (hnodes : children.map Draft.node = node.children) :
    node.namedChildren = (named children).map Draft.node := by
  unfold Node.namedChildren
  rw [← hnodes, List.filter_map]
  rfl

theorem map_node_replaceFirst (p : Draft → Bool) (f : Draft → Emit Code) (drafts : List Draft) :
    (replaceFirst p f drafts).map Draft.node = drafts.map Draft.node := by
  induction drafts with
  | nil => rfl
  | cons draft drafts ih =>
    unfold replaceFirst
    split
    · rfl
    · rw [List.map_cons, List.map_cons, ih]

theorem map_node_replaceEach (p : Draft → Bool) (f : Draft → Emit Code) (drafts : List Draft) :
    (replaceEach p f drafts).map Draft.node = drafts.map Draft.node := by
  unfold replaceEach
  rw [List.map_map]
  refine List.map_congr_left fun draft _ => ?_
  rw [Function.comp_apply]
  split <;> rfl

/-! ## §6. Assembly -/

theorem ensures_assembleFrom {stop position : Nat} {drafts : List Draft}
    (h : Emitting context count drafts) :
    Ensures count (assembleFrom context.source stop position drafts) (Code.Fits context) := by
  induction drafts generalizing count position with
  | nil => exact ensures_pure fun _ _ => Code.fits_slice position stop
  | cons draft drafts ih =>
    obtain ⟨hdraft, hrest⟩ := List.forall_mem_cons.mp h
    unfold assembleFrom
    refine hdraft.bind fun k code hk hcode => ?_
    refine (ih fun d hd => (hrest d hd).mono hk).bind fun l rest hl hrest => ensures_pure ?_
    intro m hm
    exact ((Code.fits_slice position draft.node.start).append
      (hcode.mono (Nat.le_trans hl hm))).append (hrest.mono hm)

/-- A node that is assembled from its source and its children emits code that fits. -/
theorem ensures_assemble {node : Node} {children : List Draft}
    (h : Emitting context count children) :
    Ensures count (assemble context node children) (Code.Fits context) := by
  unfold assemble
  split
  · exact ensures_pure fun _ _ => Code.fits_slice node.start node.stop
  · exact ensures_assembleFrom h

theorem ensures_dropTokens {kinds : List String} {node : Node} {children : List Draft}
    (h : Emitting context count children) :
    Ensures count (dropTokens context kinds node children) (Code.Fits context) :=
  ensures_assemble (h.replaceEach fun _ _ => ensures_pure fun _ _ => Code.fits_nil)

end Draft

end Drafts

end LivePreview.Lowering
