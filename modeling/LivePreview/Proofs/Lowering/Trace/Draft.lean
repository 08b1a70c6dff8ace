/-
  LivePreview.Proofs.Lowering.Trace.Draft
  ───────────────────────────────────────
  **Drafts whose code stems from their nodes.**

  The code of a rebuilt construct is put together from pieces that stem from somewhere
  within it (`StemsWithin`) and from code of its own, which can stand in place of any
  stretch of it (`StemsAnywhere`).  Between two pieces there is always code of its own, so
  a piece need not stand behind the one in front of it in the source: whatever starts and
  ends with code of its own can again stand in place of any stretch
  (`StemsAnywhere.around`, `StemsAnywhere.around_joinWith`).

  A draft is *traced* if it is that of a node of the tree, if the code it emits stems
  from that node, and if the drafts in it are traced (`Draft.Traced`).  A node that is
  assembled from such drafts stems from its gaps and from its children
  (`yields_assemble`), whatever steps have been exchanged for others that stem from the
  same children.
-/
import LivePreview.Proofs.Lowering.Trace.Segment

namespace LivePreview.Lowering

open LivePreview.Syntax (Node)

/-! ## §1. Parts of constructs -/

/-- The node is one of the tree, and lies in a construct. -/
structure IsPart (root construct part : Node) : Prop where
  mem : part ∈ root.preorder
  start_le : construct.start ≤ part.start
  le_stop : part.stop ≤ construct.stop

section Parts

variable {context : Context} {root construct part : Node}

theorem isPart_self (h : construct ∈ root.preorder) : IsPart root construct construct :=
  ⟨h, Nat.le_refl _, Nat.le_refl _⟩

/-- The children of a part are parts. -/
theorem IsPart.child (h : IsPart root construct part) (hplace : part.InPlace context.source) {child : Node}
    (hchild : child ∈ part.children) : IsPart root construct child := by
  obtain ⟨hstart, -, hstop⟩ := hplace.inRow.bounds hchild
  exact ⟨Node.mem_preorder_of_child h.mem hchild, Nat.le_trans h.start_le hstart,
    Nat.le_trans hstop h.le_stop⟩

theorem IsPart.spans_start (h : IsPart root construct part) (hle : part.start ≤ part.stop) :
    Spans construct part.start :=
  ⟨h.start_le, Nat.le_trans hle h.le_stop⟩

theorem IsPart.spans_stop (h : IsPart root construct part) (hle : part.start ≤ part.stop) :
    Spans construct part.stop :=
  ⟨Nat.le_trans h.start_le hle, h.le_stop⟩

end Parts

/-! ## §2. Code of a construct -/

/-- The code stems from some stretch of the construct. -/
def StemsWithin (context : Context) (root construct : Node) (code : Code) : Prop :=
  ∃ a b, Spans construct a ∧ Spans construct b ∧ Stems context root a b code

/-- The code stems from every stretch of the construct: it starts and ends with code of its own,
which can stand in place of any stretch. -/
def StemsAnywhere (context : Context) (root construct : Node) (code : Code) : Prop :=
  ∀ a b, Spans construct a → Spans construct b → Stems context root a b code

/-- Each of the codes stems from some stretch of the construct. -/
def AllStemWithin (context : Context) (root construct : Node) (codes : List Code) : Prop :=
  ∀ code ∈ codes, StemsWithin context root construct code

section Code

variable {context : Context} {root construct part : Node} {code other : Code}

/-- What stems from a part of the construct stems from within it. -/
theorem IsPart.stemsWithin (h : IsPart root construct part) (hle : part.start ≤ part.stop)
    (hcode : Stems context root part.start part.stop code) : StemsWithin context root construct code :=
  ⟨part.start, part.stop, h.spans_start hle, h.spans_stop hle, hcode⟩

/-- Code of its own can stand anywhere in the construct, since it takes no notice of the source. -/
theorem stemsAnywhere_made (hconstruct : IsRebuilt root construct) (hmade : IsMade context.options code)
    (hcode : code ≠ []) : StemsAnywhere context root construct code := by
  intro a b ha hb
  refine ⟨[.made a b code], ⟨rfl, ⟨hcode, hmade, construct, hconstruct, ha, hb⟩, rfl⟩, ?_⟩
  exact List.append_nil code

theorem stemsAnywhere_fixed (hconstruct : IsRebuilt root construct) {text : String}
    (htext : text ∈ madeTexts) : StemsAnywhere context root construct (.ofText text) := by
  have hne : ∀ text ∈ madeTexts, Code.ofText text ≠ [] := by decide
  exact stemsAnywhere_made hconstruct (.fixed htext) (hne text htext)

theorem StemsAnywhere.within (h : StemsAnywhere context root construct code)
    (hle : construct.start ≤ construct.stop) : StemsWithin context root construct code :=
  have hstart : Spans construct construct.start := ⟨Nat.le_refl _, hle⟩
  ⟨_, _, hstart, hstart, h _ _ hstart hstart⟩

/-- Code of its own may be empty if nothing has to hold it in its place. -/
theorem stemsWithin_made (hconstruct : IsRebuilt root construct) (hle : construct.start ≤ construct.stop)
    (hmade : IsMade context.options code) : StemsWithin context root construct code := by
  by_cases hcode : code = []
  · -- the tag of a fragment may be empty, and then no segment is needed
    have hstart : Spans construct construct.start := ⟨Nat.le_refl _, hle⟩
    rw [hcode]
    exact ⟨_, _, hstart, hstart, stems_nil⟩
  · exact (stemsAnywhere_made hconstruct hmade hcode).within hle

/-! ## §3. Pieces in a row -/

/-- Code of its own on both sides of code from some stretch. -/
theorem StemsAnywhere.around {front back : Code} (hfront : StemsAnywhere context root construct front)
    (hcode : StemsWithin context root construct code) (hback : StemsAnywhere context root construct back) :
    StemsAnywhere context root construct (front ++ code ++ back) := by
  intro start stop hstart hstop
  obtain ⟨a, b, ha, hb, hstems⟩ := hcode
  -- the front goes on to where the code is from, and the back goes on from where it stops
  exact ((hfront start a hstart ha).append hstems).append (hback b stop hb hstop)

/-- Code of its own behind code from some stretch. -/
theorem StemsWithin.append (hcode : StemsWithin context root construct code)
    (hother : StemsAnywhere context root construct other) :
    StemsWithin context root construct (code ++ other) := by
  obtain ⟨a, b, ha, hb, hstems⟩ := hcode
  exact ⟨a, b, ha, hb, hstems.append (hother b b hb hb)⟩

/-- Code from two stretches with code of its own between them. -/
theorem StemsWithin.join {between : Code} (hcode : StemsWithin context root construct code)
    (hbetween : StemsAnywhere context root construct between)
    (hother : StemsWithin context root construct other) :
    StemsWithin context root construct (code ++ between ++ other) := by
  obtain ⟨a, b, ha, hb, hstems⟩ := hcode
  obtain ⟨c, d, hc, hd, hothers⟩ := hother
  exact ⟨a, d, ha, hd, (hstems.append (hbetween b c hb hc)).append hothers⟩

/-- Code of its own behind other such code. -/
theorem StemsAnywhere.append (h : StemsAnywhere context root construct code)
    (hother : StemsAnywhere context root construct other) (hle : construct.start ≤ construct.stop) :
    StemsAnywhere context root construct (code ++ other) := by
  -- nothing at all, at the start of the construct, stands between the two
  have hempty : StemsWithin context root construct [] :=
    ⟨_, _, ⟨Nat.le_refl _, hle⟩, ⟨Nat.le_refl _, hle⟩, stems_nil⟩
  have hboth := h.around hempty hother
  rwa [List.append_nil] at hboth

theorem allStemWithin_nil : AllStemWithin context root construct [] :=
  fun _ hcode => absurd hcode List.not_mem_nil

theorem AllStemWithin.cons {codes : List Code} (hcode : StemsWithin context root construct code)
    (hcodes : AllStemWithin context root construct codes) :
    AllStemWithin context root construct (code :: codes) :=
  List.forall_mem_cons.mpr ⟨hcode, hcodes⟩

theorem AllStemWithin.append {codes others : List Code} (h : AllStemWithin context root construct codes)
    (hothers : AllStemWithin context root construct others) :
    AllStemWithin context root construct (codes ++ others) :=
  List.forall_mem_append.mpr ⟨h, hothers⟩

/-- A list of codes in brackets. -/
theorem StemsAnywhere.around_joinWith {front back : Code} {separator : String} {codes : List Code}
    (hfront : StemsAnywhere context root construct front)
    (hseparator : StemsAnywhere context root construct (.ofText separator))
    (hcodes : AllStemWithin context root construct codes)
    (hback : StemsAnywhere context root construct back) (hle : construct.start ≤ construct.stop) :
    StemsAnywhere context root construct (front ++ Code.joinWith separator codes ++ back) := by
  -- by induction on the codes, while what has been put together grows at the front
  induction codes generalizing front with
  | nil =>
    unfold Code.joinWith
    rw [List.append_nil]
    exact hfront.append hback hle
  | cons code codes ih =>
    obtain ⟨hcode, hrest⟩ := List.forall_mem_cons.mp hcodes
    cases codes with
    | nil => exact hfront.around hcode hback
    | cons next codes =>
      -- the first code and the separator behind it join the bracket
      have hlonger := ih (hfront.around hcode hseparator) hrest
      unfold Code.joinWith
      simpa only [List.append_assoc] using hlonger

end Code

/-! ## §4. Parts in their places -/

section Placed

variable {context : Context} {root construct part : Node}
  (hplaced : ∀ node ∈ root.preorder, node.InPlace context.source)
include hplaced

/-- A text that is copied out of the construct. -/
theorem IsPart.text_stemsWithin (h : IsPart root construct part) :
    StemsWithin context root construct (.ofText (context.text part)) :=
  h.stemsWithin (hplaced part h.mem).le (stems_text hplaced h.mem)

theorem IsPart.of_mem_children (h : IsPart root construct part) {child : Node}
    (hchild : child ∈ part.children) : IsPart root construct child :=
  h.child (hplaced part h.mem) hchild

/-- Code of its own can stand in place of a part. -/
theorem StemsAnywhere.in_place_of {code : Code} (h : StemsAnywhere context root construct code)
    (hpart : IsPart root construct part) : Stems context root part.start part.stop code :=
  have hle := (hplaced part hpart.mem).le
  h _ _ (hpart.spans_start hle) (hpart.spans_stop hle)

end Placed

section Drafts

variable {α β : Type} {context : Context} {root node : Node} {drafts : List Draft}

/-! ## §5. What a step yields -/

/-- Whatever the step yields satisfies `P`. -/
def Yields (step : Emit α) (P : α → Prop) : Prop :=
  Ensures 0 step fun _ => P

theorem Yields.bind {step : Emit α} {next : α → Emit β} {P : α → Prop} {Q : β → Prop}
    (h : Yields step P) (hnext : ∀ a, P a → Yields (next a) Q) : Yields (step >>= next) Q :=
  Ensures.bind h fun k a _ ha => (hnext a ha).mono (Nat.zero_le k)

theorem yields_pure {a : α} {P : α → Prop} (h : P a) : Yields (pure a) P :=
  ensures_pure fun _ _ => h

theorem Yields.map {step : Emit α} {f : α → β} {P : α → Prop} {Q : β → Prop} (h : Yields step P)
    (hf : ∀ a, P a → Q (f a)) : Yields (step >>= fun a => pure (f a)) Q :=
  h.bind fun a ha => yields_pure (hf a ha)

theorem Yields.imp {step : Emit α} {P Q : α → Prop} (h : Yields step P) (hPQ : ∀ a, P a → Q a) :
    Yields step Q := by
  intro before a after hcount hrun
  obtain ⟨hextends, ha⟩ := h before a after hcount hrun
  exact ⟨hextends, hPQ a ha⟩

theorem yields_reject {P : α → Prop} {cause : Cause} : Yields (reject context node cause) P :=
  ensures_reject

theorem yields_demand {a? : Option α} : Yields (demand a?) fun a => a? = some a :=
  ensures_demand

theorem yields_lift {result : Except Failure α} :
    Yields (liftM result : Emit α) fun a => result = .ok a :=
  ensures_lift

/-- The placeholder of a specifier is code of its own. -/
theorem yields_recordImport (options : Options) {specifier : Text} :
    Yields (recordImport specifier) fun code => code ≠ [] ∧ IsMade options code := by
  intro before code after hcount hrun
  obtain ⟨hextends, -⟩ := ensures_recordImport ⟨"", {}⟩ before code after hcount hrun
  refine ⟨hextends, ?_⟩
  -- whether the specifier is new or not, its placeholder is all the code
  obtain ⟨number, rfl⟩ : ∃ number, code = [.site number] := by
    cases hrun
    exact ⟨_, rfl⟩
  exact ⟨List.cons_ne_nil _ _, .site number⟩

/-! ## §6. Traced drafts -/

namespace Draft

/-- The draft and all drafts in it are those of nodes of the tree, which their code stems from. -/
inductive Traced (context : Context) (root : Node) : Draft → Prop where
  | intro {draft : Draft} (hnode : draft.node ∈ root.preorder)
    (hnodes : draft.children.map Draft.node = draft.node.children)
    (hchildren : ∀ child ∈ draft.children, Traced context root child)
    (hemission : Yields draft.emission (Stems context root draft.node.start draft.node.stop)) :
    Traced context root draft

/-- The steps of the drafts emit code that stems from their nodes. -/
def Tracing (context : Context) (root : Node) (drafts : List Draft) : Prop :=
  ∀ draft ∈ drafts, Yields draft.emission (Stems context root draft.node.start draft.node.stop)

/-- All drafts of the list are traced. -/
def AllTraced (context : Context) (root : Node) (drafts : List Draft) : Prop :=
  ∀ draft ∈ drafts, draft.Traced context root

namespace Traced

variable {draft : Draft}

theorem nodes_eq (h : draft.Traced context root) :
    draft.children.map Draft.node = draft.node.children := by
  cases h with
  | intro _ hnodes _ _ => exact hnodes

theorem children (h : draft.Traced context root) : AllTraced context root draft.children := by
  cases h with
  | intro _ _ hchildren _ => exact hchildren

theorem emission (h : draft.Traced context root) :
    Yields draft.emission (Stems context root draft.node.start draft.node.stop) := by
  cases h with
  | intro _ _ _ hemission => exact hemission

end Traced

theorem AllTraced.tracing (h : AllTraced context root drafts) : Tracing context root drafts :=
  fun draft hdraft => (h draft hdraft).emission

theorem AllTraced.named (h : AllTraced context root drafts) : AllTraced context root (named drafts) :=
  fun draft hdraft => h draft (List.mem_filter.mp hdraft).1

theorem Tracing.replaceFirst (h : Tracing context root drafts) {p : Draft → Bool} {f : Draft → Emit Code}
    (hf : ∀ draft, drafts.find? p = some draft →
      Yields (f draft) (Stems context root draft.node.start draft.node.stop)) :
    Tracing context root (replaceFirst p f drafts) :=
  forall_replaceFirst h hf

theorem Tracing.replaceEach (h : Tracing context root drafts) {p : Draft → Bool} {f : Draft → Emit Code}
    (hf : ∀ draft ∈ drafts, p draft = true →
      Yields (f draft) (Stems context root draft.node.start draft.node.stop)) :
    Tracing context root (replaceEach p f drafts) :=
  forall_replaceEach h hf

/-! ## §7. Assembly -/

theorem yields_assembleFrom {stop position : Nat}
    (hgaps : ∀ span ∈ Node.spans stop position (drafts.map Draft.node),
      (Segment.gap span.1 span.2).Justified context root)
    (h : Tracing context root drafts) :
    Yields (assembleFrom context.source stop position drafts) (Stems context root position stop) := by
  induction drafts generalizing position with
  | nil => exact yields_pure (stems_segment (hgaps (position, stop) List.mem_cons_self))
  | cons draft drafts ih =>
    obtain ⟨hdraft, hrest⟩ := List.forall_mem_cons.mp h
    obtain ⟨hgap, hgaps⟩ := List.forall_mem_cons.mp hgaps
    unfold assembleFrom
    -- the gap in front of the draft, its code, and the rest, which starts where it stops
    exact hdraft.bind fun code hcode => (ih hgaps hrest).map fun rest => hcode.behind_gap hgap

/-- What is assembled from the children of a node stems from the node. -/
theorem yields_assemble (hnode : node ∈ root.preorder) (hnodes : drafts.map Draft.node = node.children)
    (h : Tracing context root drafts) :
    Yields (assemble context node drafts) (Stems context root node.start node.stop) := by
  unfold assemble
  cases drafts with
  | nil =>
    -- a node without children is copied as one token
    have hleaf : (Segment.token node).Justified context root := ⟨hnode, hnodes.symm⟩
    exact yields_pure (stems_segment hleaf)
  | cons draft drafts =>
    have hchildren : node.children ≠ [] := by
      rw [← hnodes]
      exact List.cons_ne_nil _ _
    refine yields_assembleFrom ?_ h
    rw [hnodes]
    exact justified_gap hnode hchildren

/-- The tokens that the node loses leave no code. -/
theorem yields_dropTokens {kinds : List String} (hnode : node ∈ root.preorder)
    (hnodes : drafts.map Draft.node = node.children) (h : Tracing context root drafts)
    (hkinds : kinds = droppedTokens node.kind) :
    Yields (dropTokens context kinds node drafts) (Stems context root node.start node.stop) := by
  refine yields_assemble hnode ((map_node_replaceEach _ _ _).trans hnodes)
    (h.replaceEach fun draft hdraft htoken => yields_pure (stems_lost ?_))
  unfold isTokenAmong at htoken
  -- of the tokens that the rule drops, each is one that its kind of node loses
  obtain ⟨hnamed, hkind⟩ := Bool.and_eq_true_iff.mp htoken
  refine .dropped hnode (node_mem_children hnodes hdraft) ((Bool.not_eq_true' _).mp hnamed) ?_
  rw [← hkinds]
  exact List.contains_iff_mem.mp hkind

/-! ## §8. Drafts in a construct -/

/-- The draft is traced, and its node lies in the construct. -/
structure Within (context : Context) (root construct : Node) (draft : Draft) : Prop where
  traced : draft.Traced context root
  part : IsPart root construct draft.node

/-- All drafts of the list are traced and lie in the construct. -/
def AllWithin (context : Context) (root construct : Node) (drafts : List Draft) : Prop :=
  ∀ draft ∈ drafts, draft.Within context root construct

section Within

variable {construct : Node} {draft : Draft}

theorem AllWithin.named (h : AllWithin context root construct drafts) :
    AllWithin context root construct (named drafts) :=
  fun draft hdraft => h draft (List.mem_filter.mp hdraft).1

/-- What is found in one of two places is in the construct if the places are. -/
theorem AllWithin.orElse {others : List Draft} {first second : Option Draft}
    (h : AllWithin context root construct drafts) (hothers : AllWithin context root construct others)
    (hfirst : ∀ found, first = some found → found ∈ drafts)
    (hsecond : ∀ found, second = some found → found ∈ others) (hdraft : (first <|> second) = some draft) :
    draft.Within context root construct := by
  rcases eq_some_or_of_orElse hdraft with hfound | hfound
  · exact h draft (hfirst draft hfound)
  · exact hothers draft (hsecond draft hfound)

variable (hplaced : ∀ node ∈ root.preorder, node.InPlace context.source)
include hplaced

theorem AllTraced.within (h : AllTraced context root drafts) (hnode : node ∈ root.preorder)
    (hnodes : drafts.map Draft.node = node.children) : AllWithin context root node drafts :=
  fun draft hdraft => ⟨h draft hdraft, (isPart_self hnode).of_mem_children hplaced
    (node_mem_children hnodes hdraft)⟩

theorem Within.children (h : draft.Within context root construct) :
    AllWithin context root construct draft.children :=
  fun child hchild => ⟨h.traced.children child hchild, h.part.of_mem_children hplaced
    (node_mem_children h.traced.nodes_eq hchild)⟩

/-- The code of the draft stems from within the construct. -/
theorem Within.emission (h : draft.Within context root construct) :
    Yields draft.emission (StemsWithin context root construct) := by
  intro before code after hcount hrun
  obtain ⟨hextends, hstems⟩ := h.traced.emission before code after hcount hrun
  exact ⟨hextends, h.part.stemsWithin (hplaced draft.node h.part.mem).le hstems⟩

end Within

end Draft

end Drafts

end LivePreview.Lowering
