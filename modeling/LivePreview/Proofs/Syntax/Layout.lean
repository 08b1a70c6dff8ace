/-
  LivePreview.Proofs.Syntax.Layout
  ────────────────────────────────
  **Where the nodes of a parse tree lie in the source.**

  A node lies in its place in a source if its offsets are between characters, and its
  children lie in it, one behind the other (`InPlace`).  The source of a node is then
  cut at the ends of its children: it consists of the gaps between them (`gaps`) and of
  their texts.  So two nodes with the same gaps whose children have the same texts have
  the same text, wherever they lie (`sameStretch_of_gaps`).
-/
import Mathlib.Data.List.Forall2
import Mathlib.Data.List.Infix
import Mathlib.Data.String.Basic
import LivePreview.Syntax.Node

namespace LivePreview.Syntax.Node

/-! ## §1. Slices -/

/-- The offset is between two characters of the source, or at one of its ends. -/
def IsBoundary (source : String) (offset : Nat) : Prop :=
  (⟨offset⟩ : String.Pos.Raw).Valid source

variable {source : String}

/-- Of two beginnings of a text, the one with fewer bytes is a beginning of the other one. -/
theorem prefix_of_utf8Len_le {xs ys cs : List Char} (hxs : xs <+: cs) (hys : ys <+: cs)
    (hle : String.utf8Len xs ≤ String.utf8Len ys) : xs <+: ys := by
  rcases List.prefix_or_prefix_of_prefix hxs hys with hprefix | ⟨rest, rfl⟩
  · exact hprefix
  · -- the longer one has no bytes more, so it is the same
    have hrest : rest = [] := by
      rw [String.utf8Len_append] at hle
      exact String.utf8Len_eq_zero.mp (by omega)
    rw [hrest, List.append_nil]

/-- What stands in front of a boundary. -/
theorem IsBoundary.exists_prefix {offset : Nat} (h : IsBoundary source offset) :
    ∃ front, front <+: source.toList ∧ String.utf8Len front = offset := by
  obtain ⟨front, rest, rfl, hlen⟩ := h.exists
  refine ⟨front, ⟨rest, (String.toList_ofList).symm⟩, ?_⟩
  exact (String.Pos.Raw.mk.inj hlen).symm

/-- The boundaries are the ends of the beginnings of the source. -/
theorem isBoundary_iff {offset : Nat} :
    IsBoundary source offset ↔ offset ∈ source.toList.inits.map String.utf8Len := by
  rw [List.mem_map]
  constructor
  · intro h
    obtain ⟨front, hfront, hlen⟩ := h.exists_prefix
    exact ⟨front, (List.mem_inits _ _).mpr hfront, hlen⟩
  · rintro ⟨front, hfront, rfl⟩
    obtain ⟨rest, hrest⟩ := (List.mem_inits _ _).mp hfront
    have hsource : source = String.ofList (front ++ rest) := by rw [hrest, String.ofList_toList]
    unfold IsBoundary
    rw [hsource]
    exact String.Pos.Raw.Valid.mk front rest rfl

instance (source : String) (offset : Nat) : Decidable (IsBoundary source offset) :=
  decidable_of_iff _ isBoundary_iff.symm

/-- A slice between two boundaries is what stands in front of the second and not of the first. -/
theorem slice_utf8Len {front middle : List Char} (h : front ++ middle <+: source.toList) :
    slice source (String.utf8Len front) (String.utf8Len (front ++ middle)) = String.ofList middle := by
  obtain ⟨rest, hrest⟩ := h
  have hsource : source = String.ofList (front ++ middle ++ rest) := by
    rw [hrest, String.ofList_toList]
  unfold slice
  rw [hsource, String.utf8Len_append]
  exact String.extract_of_valid front middle rest

/-- **Neighbouring slices make up one slice.** -/
theorem slice_append {a b c : Nat} (ha : IsBoundary source a) (hb : IsBoundary source b)
    (hc : IsBoundary source c) (hab : a ≤ b) (hbc : b ≤ c) :
    slice source a b ++ slice source b c = slice source a c := by
  obtain ⟨front, hfront, rfl⟩ := ha.exists_prefix
  obtain ⟨_, hmiddle, rfl⟩ := hb.exists_prefix
  obtain ⟨middle, rfl⟩ := prefix_of_utf8Len_le hfront hmiddle hab
  obtain ⟨_, hlast, rfl⟩ := hc.exists_prefix
  obtain ⟨last, rfl⟩ := prefix_of_utf8Len_le hmiddle hlast hbc
  have hwhole : front ++ (middle ++ last) <+: source.toList := by rwa [← List.append_assoc]
  rw [slice_utf8Len hmiddle, slice_utf8Len hlast, List.append_assoc, slice_utf8Len hwhole,
    String.ofList_append]

theorem slice_of_le {a b : Nat} (h : b ≤ a) : slice source a b = "" := by
  unfold slice String.Pos.Raw.extract
  exact if_pos h

/-- Between two boundaries stands nothing only if the second is not behind the first. -/
theorem slice_eq_empty_iff {a b : Nat} (ha : IsBoundary source a) (hb : IsBoundary source b) :
    slice source a b = "" ↔ b ≤ a := by
  refine ⟨fun hempty => ?_, slice_of_le⟩
  by_contra hlt
  obtain ⟨front, hfront, rfl⟩ := ha.exists_prefix
  obtain ⟨_, hmiddle, rfl⟩ := hb.exists_prefix
  obtain ⟨middle, rfl⟩ := prefix_of_utf8Len_le hfront hmiddle (by omega)
  rw [slice_utf8Len hmiddle, String.ofList_eq_empty_iff] at hempty
  rw [hempty, List.append_nil] at hlt
  exact hlt (Nat.le_refl _)

/-! ## §2. Layout -/

/-- The nodes lie between two offsets, one behind the other. -/
def InRow (stop : Nat) : Nat → List Node → Prop
  | position, [] => position ≤ stop
  | position, node :: nodes => position ≤ node.start ∧ node.start ≤ node.stop ∧ InRow stop node.stop nodes

instance InRow.decidable (stop : Nat) : (position : Nat) → (nodes : List Node) →
    Decidable (InRow stop position nodes)
  | position, [] => inferInstanceAs (Decidable (position ≤ stop))
  | position, node :: nodes =>
    have := InRow.decidable stop node.stop nodes
    inferInstanceAs (Decidable (position ≤ node.start ∧ node.start ≤ node.stop ∧ InRow stop node.stop nodes))

/-- The children of the node lie in it in a row, and it lies between two boundaries. -/
structure InPlace (source : String) (node : Node) : Prop where
  start_isBoundary : IsBoundary source node.start
  stop_isBoundary : IsBoundary source node.stop
  inRow : InRow node.stop node.start node.children

instance (source : String) (node : Node) : Decidable (InPlace source node) :=
  decidable_of_iff
    (IsBoundary source node.start ∧ IsBoundary source node.stop ∧ InRow node.stop node.start node.children)
    ⟨fun ⟨hstart, hstop, hrow⟩ => ⟨hstart, hstop, hrow⟩, fun ⟨hstart, hstop, hrow⟩ => ⟨hstart, hstop, hrow⟩⟩

theorem InRow.le {stop position : Nat} {nodes : List Node} (h : InRow stop position nodes) :
    position ≤ stop := by
  induction nodes generalizing position with
  | nil => exact h
  | cons node nodes ih =>
    obtain ⟨hstart, hnode, hrest⟩ := h
    exact Nat.le_trans hstart (Nat.le_trans hnode (ih hrest))

theorem InPlace.le {node : Node} (h : node.InPlace source) : node.start ≤ node.stop :=
  h.inRow.le

/-- A node among others in a row lies where they do. -/
theorem InRow.bounds {stop position : Nat} {nodes : List Node} (h : InRow stop position nodes) {node : Node}
    (hnode : node ∈ nodes) :
    position ≤ node.start ∧ node.start ≤ node.stop ∧ node.stop ≤ stop := by
  induction nodes generalizing position with
  | nil => exact absurd hnode List.not_mem_nil
  | cons first nodes ih =>
    obtain ⟨hstart, hfirst, hrest⟩ := h
    rcases List.mem_cons.mp hnode with rfl | hnode
    · exact ⟨hstart, hfirst, hrest.le⟩
    · obtain ⟨hposition, hbounds⟩ := ih hrest hnode
      exact ⟨by omega, hbounds⟩

/-- The nodes in front of one in a row, and those behind it. -/
theorem InRow.split {stop position : Nat} {before behind : List Node} {node : Node}
    (h : InRow stop position (before ++ node :: behind)) :
    InRow node.start position before ∧ node.start ≤ node.stop ∧ InRow stop node.stop behind := by
  induction before generalizing position with
  | nil => exact h
  | cons first before ih =>
    obtain ⟨hstart, hfirst, hrest⟩ := h
    obtain ⟨hbefore, hnode, hbehind⟩ := ih hrest
    exact ⟨⟨hstart, hfirst, hbefore⟩, hnode, hbehind⟩

/-- What stands in a row is behind a node that is not empty, or starts in front of its end. -/
theorem InRow.lt_or_mem {α : Type} {place : α → Node} {stop position : Nat} {front behind : List α}
    {left right : α} (h : InRow stop position ((front ++ left :: behind).map place))
    (hleft : (place left).start < (place left).stop) (hright : right ∈ front ++ left :: behind) :
    (place right).start < (place left).stop ∨ right ∈ behind := by
  rw [List.map_append, List.map_cons] at h
  rcases List.mem_append.mp hright with hmem | hmem
  · have hbounds := h.split.1.bounds (List.mem_map_of_mem hmem)
    exact .inl (by omega)
  · rcases List.mem_cons.mp hmem with rfl | hmem
    · exact .inl hleft
    · exact .inr hmem

/-- Of two nodes in a row one is behind the other, unless they are the same. -/
theorem InRow.eq_or_apart {stop position : Nat} {nodes : List Node} (h : InRow stop position nodes)
    {a b : Node} (ha : a ∈ nodes) (hb : b ∈ nodes) : a = b ∨ a.stop ≤ b.start ∨ b.stop ≤ a.start := by
  induction nodes generalizing position with
  | nil => exact absurd ha List.not_mem_nil
  | cons first nodes ih =>
    obtain ⟨-, -, hrest⟩ := h
    rcases List.mem_cons.mp ha with rfl | hbehind
    · rcases List.mem_cons.mp hb with rfl | hbehind
      · exact .inl rfl
      · exact .inr (.inl (hrest.bounds hbehind).1)
    · rcases List.mem_cons.mp hb with rfl | hb
      · exact .inr (.inr (hrest.bounds hbehind).1)
      · exact ih hrest hbehind hb

/-- A row may begin further in front. -/
theorem InRow.mono {stop position front : Nat} {nodes : List Node} (h : InRow stop position nodes)
    (hle : front ≤ position) : InRow stop front nodes := by
  cases nodes with
  | nil => exact Nat.le_trans hle h
  | cons node nodes => exact ⟨Nat.le_trans hle h.1, h.2⟩

/-- Some of the nodes in a row are in a row. -/
theorem InRow.filter {stop position : Nat} {nodes : List Node} (h : InRow stop position nodes)
    (p : Node → Bool) : InRow stop position (nodes.filter p) := by
  induction nodes generalizing position with
  | nil => exact h
  | cons node nodes ih =>
    obtain ⟨hstart, hle, hrest⟩ := h
    cases hp : p node with
    | true =>
      rw [List.filter_cons_of_pos hp]
      exact ⟨hstart, hle, ih hrest⟩
    | false =>
      rw [List.filter_cons_of_neg (by rw [hp]; exact Bool.false_ne_true)]
      exact (ih hrest).mono (Nat.le_trans hstart hle)

theorem mem_preorder_self (node : Node) : node ∈ node.preorder := by
  rw [preorder_eq]
  exact List.mem_cons_self

theorem mem_preorder_of_mem_children {node child other : Node} (hchild : child ∈ node.children)
    (hother : other ∈ child.preorder) : other ∈ node.preorder := by
  rw [preorder_eq]
  exact List.mem_cons_of_mem _ (List.mem_flatten.mpr ⟨_, List.mem_map_of_mem hchild, hother⟩)

/-- The children of a node of the tree belong to the tree. -/
theorem mem_preorder_of_child {root node child : Node} (hnode : node ∈ root.preorder)
    (hchild : child ∈ node.children) : child ∈ root.preorder := by
  induction root using forall_of_children with
  | h root ih =>
    rw [preorder_eq] at hnode
    rcases List.mem_cons.mp hnode with rfl | hnode
    · exact mem_preorder_of_mem_children hchild (mem_preorder_self child)
    · obtain ⟨_, hmap, hnode⟩ := List.mem_flatten.mp hnode
      obtain ⟨first, hfirst, rfl⟩ := List.mem_map.mp hmap
      exact mem_preorder_of_mem_children hfirst (ih first hfirst hnode)

/-- The nodes below a node of the tree belong to the tree. -/
theorem preorder_subset {root node : Node} (hnode : node ∈ root.preorder) : node.preorder ⊆ root.preorder := by
  induction node using forall_of_children with
  | h node ih =>
    intro other hother
    rw [preorder_eq] at hother
    rcases List.mem_cons.mp hother with rfl | hother
    · exact hnode
    · obtain ⟨_, hmap, hother⟩ := List.mem_flatten.mp hother
      obtain ⟨child, hchild, rfl⟩ := List.mem_map.mp hmap
      exact ih child hchild (mem_preorder_of_child hnode hchild) hother

/-- The nodes of a tree lie in it. -/
theorem bounds_of_mem_preorder {root node : Node} (hplaced : ∀ other ∈ root.preorder, other.InPlace source)
    (hnode : node ∈ root.preorder) : root.start ≤ node.start ∧ node.stop ≤ root.stop := by
  induction root using forall_of_children with
  | h root ih =>
    rw [preorder_eq] at hnode
    rcases List.mem_cons.mp hnode with rfl | hnode
    · exact ⟨Nat.le_refl _, Nat.le_refl _⟩
    · obtain ⟨_, hmap, hnode⟩ := List.mem_flatten.mp hnode
      obtain ⟨child, hchild, rfl⟩ := List.mem_map.mp hmap
      obtain ⟨hstart, -, hstop⟩ := (hplaced root (mem_preorder_self root)).inRow.bounds hchild
      have hinner := ih child hchild (fun other hother =>
        hplaced other (mem_preorder_of_mem_children hchild hother)) hnode
      exact ⟨Nat.le_trans hstart hinner.1, Nat.le_trans hinner.2 hstop⟩

/-- A tree in which no node marks a fault has none. -/
theorem hasFault_eq_false {node : Node} (h : ∀ other ∈ node.preorder, other.isFault = false) :
    node.hasFault = false := by
  induction node using forall_of_children with
  | h node ih =>
    unfold hasFault at ih ⊢
    rw [fold_eq, h node (mem_preorder_self node), Bool.false_or, List.any_map]
    refine List.any_eq_false.mpr fun child hchild => Bool.eq_false_iff.mp ?_
    exact ih child hchild fun other hother => h other (mem_preorder_of_mem_children hchild hother)

/-! ## §3. Gaps -/

/-- What stands between two offsets beside the nodes. -/
def gaps (source : String) (stop : Nat) : Nat → List Node → List String
  | position, [] => [slice source position stop]
  | position, node :: nodes => slice source position node.start :: gaps source stop node.stop nodes

/-- The offsets that the gaps stand between. -/
def spans (stop : Nat) : Nat → List Node → List (Nat × Nat)
  | position, [] => [(position, stop)]
  | position, node :: nodes => (position, node.start) :: spans stop node.stop nodes

/-- The gaps lie where the nodes do. -/
theorem bounds_of_mem_spans {stop position : Nat} {nodes : List Node} (h : InRow stop position nodes) :
    ∀ span ∈ spans stop position nodes, position ≤ span.1 ∧ span.1 ≤ span.2 ∧ span.2 ≤ stop := by
  induction nodes generalizing position with
  | nil => exact List.forall_mem_singleton.mpr ⟨Nat.le_refl _, h, Nat.le_refl _⟩
  | cons node nodes ih =>
    obtain ⟨hstart, hle, hrest⟩ := h
    refine List.forall_mem_cons.mpr ⟨⟨Nat.le_refl _, hstart, Nat.le_trans hle hrest.le⟩, fun span hspan => ?_⟩
    obtain ⟨hposition, hbounds⟩ := ih hrest span hspan
    exact ⟨Nat.le_trans hstart (Nat.le_trans hle hposition), hbounds⟩

/-- No node reaches into a gap. -/
theorem apart_of_mem_spans {stop position : Nat} {nodes : List Node} (h : InRow stop position nodes) {node : Node}
    (hnode : node ∈ nodes) : ∀ span ∈ spans stop position nodes, node.stop ≤ span.1 ∨ span.2 ≤ node.start := by
  induction nodes generalizing position with
  | nil => exact absurd hnode List.not_mem_nil
  | cons first nodes ih =>
    obtain ⟨-, hle, hrest⟩ := h
    refine List.forall_mem_cons.mpr ⟨?_, fun span hspan => ?_⟩
    · -- the gap in front of the first node
      rcases List.mem_cons.mp hnode with rfl | hnode
      · exact .inr (Nat.le_refl _)
      · exact .inr (Nat.le_trans hle (hrest.bounds hnode).1)
    · rcases List.mem_cons.mp hnode with rfl | hnode
      · exact .inl (bounds_of_mem_spans hrest span hspan).1
      · exact ih hrest hnode span hspan

/-- A node that is left out of a row lies in a gap between the others. -/
theorem exists_span_of_filter {stop position front : Nat} {nodes : List Node} (h : InRow stop position nodes)
    (hfront : front ≤ position) {p : Node → Bool} {node : Node} (hnode : node ∈ nodes) (hp : p node = false) :
    ∃ span ∈ spans stop front (nodes.filter p), span.1 ≤ node.start ∧ node.stop ≤ span.2 := by
  induction nodes generalizing position front with
  | nil => exact absurd hnode List.not_mem_nil
  | cons first nodes ih =>
    obtain ⟨hstart, hle, hrest⟩ := h
    cases hfirst : p first with
    | true =>
      have hbehind : node ∈ nodes := by
        refine (List.mem_cons.mp hnode).resolve_left ?_
        rintro rfl
        rw [hp] at hfirst
        cases hfirst
      obtain ⟨span, hspan, hlies⟩ := ih hrest (Nat.le_refl _) hbehind
      rw [List.filter_cons_of_pos hfirst]
      exact ⟨span, List.mem_cons_of_mem _ hspan, hlies⟩
    | false =>
      rw [List.filter_cons_of_neg (by rw [hfirst]; exact Bool.false_ne_true)]
      rcases List.mem_cons.mp hnode with rfl | hbehind
      · -- the first gap reaches to the next node that is not left out
        cases hothers : nodes.filter p with
        | nil => exact ⟨(front, stop), List.mem_cons_self, Nat.le_trans hfront hstart, hrest.le⟩
        | cons next others =>
          have hnext : next ∈ nodes := (List.mem_filter.mp (hothers ▸ List.mem_cons_self)).1
          exact ⟨(front, next.start), List.mem_cons_self, Nat.le_trans hfront hstart, (hrest.bounds hnext).1⟩
      · exact ih hrest (Nat.le_trans hfront (Nat.le_trans hstart hle)) hbehind

/-- The gaps of a node stand between boundaries. -/
theorem isBoundary_of_mem_spans {stop position : Nat} {nodes : List Node}
    (hposition : IsBoundary source position) (hstop : IsBoundary source stop)
    (hplace : ∀ node ∈ nodes, node.InPlace source) :
    ∀ span ∈ spans stop position nodes, IsBoundary source span.1 ∧ IsBoundary source span.2 := by
  induction nodes generalizing position with
  | nil => exact List.forall_mem_singleton.mpr ⟨hposition, hstop⟩
  | cons node nodes ih =>
    obtain ⟨hnode, hrest⟩ := List.forall_mem_cons.mp hplace
    exact List.forall_mem_cons.mpr
      ⟨⟨hposition, hnode.start_isBoundary⟩, ih hnode.stop_isBoundary hrest⟩

/-- The gaps are what stands between the spans. -/
theorem gaps_eq_of_spans {other : String} {stop position : Nat} {nodes : List Node}
    (h : ∀ span ∈ spans stop position nodes, slice source span.1 span.2 = slice other span.1 span.2) :
    gaps source stop position nodes = gaps other stop position nodes := by
  induction nodes generalizing position with
  | nil => exact congrArg ([·]) (h _ (List.mem_singleton_self _))
  | cons node nodes ih =>
    obtain ⟨hfirst, hrest⟩ := List.forall_mem_cons.mp h
    exact congrArg₂ List.cons hfirst (ih hrest)

theorem length_gaps (source : String) (stop position : Nat) (nodes : List Node) :
    (gaps source stop position nodes).length = nodes.length + 1 := by
  induction nodes generalizing position with
  | nil => rfl
  | cons node nodes ih =>
    unfold gaps
    rw [List.length_cons, ih, List.length_cons]

/-- The gaps on both sides of a node. -/
theorem gaps_append (source : String) (stop position : Nat) (before : List Node) (node : Node)
    (behind : List Node) :
    gaps source stop position (before ++ node :: behind)
      = gaps source node.start position before ++ gaps source stop node.stop behind := by
  induction before generalizing position with
  | nil => rfl
  | cons first before ih =>
    rw [List.cons_append, gaps, ih]
    rfl

/-! ## §4. Stretches with the same text -/

/-- Between the offsets stands the same in both sources. -/
structure SameStretch (source other : String) (start stop start' stop' : Nat) : Prop where
  isBoundary_start : IsBoundary source start
  isBoundary_stop : IsBoundary source stop
  isBoundary_start' : IsBoundary other start'
  isBoundary_stop' : IsBoundary other stop'
  le : start ≤ stop
  le' : start' ≤ stop'
  slice_eq : slice source start stop = slice other start' stop'

section Stretches

variable {other : String} {a b c a' b' c' : Nat}

/-- Nothing stands between an offset and itself. -/
theorem sameStretch_self (h : IsBoundary source a) (h' : IsBoundary other a') :
    SameStretch source other a a a' a' :=
  ⟨h, h, h', h', Nat.le_refl _, Nat.le_refl _, by rw [slice_of_le (Nat.le_refl _), slice_of_le (Nat.le_refl _)]⟩

theorem SameStretch.append (h : SameStretch source other a b a' b') (hnext : SameStretch source other b c b' c') :
    SameStretch source other a c a' c' where
  isBoundary_start := h.isBoundary_start
  isBoundary_stop := hnext.isBoundary_stop
  isBoundary_start' := h.isBoundary_start'
  isBoundary_stop' := hnext.isBoundary_stop'
  le := Nat.le_trans h.le hnext.le
  le' := Nat.le_trans h.le' hnext.le'
  slice_eq := by
    rw [← slice_append h.isBoundary_start h.isBoundary_stop hnext.isBoundary_stop h.le hnext.le,
      ← slice_append h.isBoundary_start' h.isBoundary_stop' hnext.isBoundary_stop' h.le' hnext.le',
      h.slice_eq, hnext.slice_eq]

/-- The stretches of two nodes with the same text. -/
theorem InPlace.sameStretch {node node' : Node} (h : node.InPlace source) (h' : node'.InPlace other)
    (htext : node.text source = node'.text other) :
    SameStretch source other node.start node.stop node'.start node'.stop :=
  ⟨h.start_isBoundary, h.stop_isBoundary, h'.start_isBoundary, h'.stop_isBoundary, h.le, h'.le, htext⟩

/-- **Nodes with the same texts and the same gaps make up the same text.** -/
theorem sameStretch_of_gaps {stop stop' position position' : Nat} {nodes others : List Node}
    (hposition : IsBoundary source position) (hposition' : IsBoundary other position')
    (hstop : IsBoundary source stop) (hstop' : IsBoundary other stop')
    (hrow : InRow stop position nodes) (hrow' : InRow stop' position' others)
    (hgaps : gaps source stop position nodes = gaps other stop' position' others)
    (hplace : ∀ node ∈ nodes, node.InPlace source) (hplace' : ∀ node ∈ others, node.InPlace other)
    (htexts : List.Forall₂ (fun a b => a.text source = b.text other) nodes others) :
    SameStretch source other position stop position' stop' := by
  induction htexts generalizing position position' with
  | nil => exact ⟨hposition, hstop, hposition', hstop', hrow, hrow', (List.cons.inj hgaps).1⟩
  | @cons a b nodes others htext _ ih =>
    obtain ⟨hstart, hle, hrow⟩ := hrow
    obtain ⟨hstart', hle', hrow'⟩ := hrow'
    obtain ⟨hplaceA, hplace⟩ := List.forall_mem_cons.mp hplace
    obtain ⟨hplaceB, hplace'⟩ := List.forall_mem_cons.mp hplace'
    obtain ⟨hgap, hgaps⟩ := List.cons.inj hgaps
    -- the first gap, the text of the first node, and the rest
    have hfront : SameStretch source other position a.start position' b.start :=
      ⟨hposition, hplaceA.start_isBoundary, hposition', hplaceB.start_isBoundary, hstart, hstart', hgap⟩
    exact (hfront.append (hplaceA.sameStretch hplaceB htext)).append
      (ih hplaceA.stop_isBoundary hplaceB.stop_isBoundary hrow hrow' hgaps hplace hplace')

end Stretches

end LivePreview.Syntax.Node
