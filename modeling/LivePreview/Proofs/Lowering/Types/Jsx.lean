/-
  LivePreview.Proofs.Lowering.Types.Jsx
  ─────────────────────────────────────
  **Elements do not depend on types.**

  Tags, names of attributes and texts in quotes are copied in one piece.  The text
  between two children of an element is cut out by offsets, across the texts and tokens
  that stand there.  The offsets are others in an alike element, but the children that
  they come from stand at the same places among the children, so the same texts are cut
  out (`agree_jsxArguments`).
-/
import LivePreview.Proofs.Lowering.Types.Declaration

namespace LivePreview.Lowering

open LivePreview.Syntax (Node)

variable {context other : Context} {a b : Node} {drafts drafts' : List Draft}

/-! ## §1. Tags and properties -/

/-- The tag of an element is copied in one piece. -/
theorem jsxTag_eq (hoptions : context.options = other.options)
    (hname : Option.Rel (AlikeWhole context.source other.source) (a.childByField? "name")
      (b.childByField? "name")) :
    jsxTag context a = jsxTag other b := by
  unfold jsxTag
  rcases rel_cases hname with ⟨ha, hb⟩ | ⟨c, d, ha, hb, hcd⟩
  · rw [ha, hb, hoptions]
  · rw [ha, hb]
    dsimp only
    rw [contextText_eq hcd, hcd.alike.kind_eq]

theorem alike_bracedExpression? (h : List.Forall₂ (Draft.Alike context other) drafts drafts') :
    Option.Rel (Draft.Alike context other) (bracedExpression? drafts) (bracedExpression? drafts') :=
  rel_find? (Draft.alike_named h) fun _ _ hdraft => by rw [hdraft.kind_eq]

theorem agree_attributeValue {value value' : Draft} (h : Draft.Alike context other value value')
    (hquoted : (value.node.kind == "string" || value.node.kind == "jsx_string") = true →
      holdsTypes value.node = false) :
    Agree (attributeValue context value) (attributeValue other value') := by
  unfold attributeValue
  rw [← h.kind_eq]
  split
  · next hkind =>
    have hwhole : AlikeWhole context.source other.source value.node value'.node := ⟨h.node, hquoted hkind⟩
    unfold attributeText
    rw [contextText_eq hwhole]
    exact .refl _
  · split
    · next hkind =>
      have hchildren := (h.matching (isPlain_of_kind (beq_iff_eq.mp hkind) (by decide))).drafts
      rcases rel_cases (alike_bracedExpression? hchildren) with ⟨ha, hb⟩ | ⟨c, d, ha, hb, hcd⟩
      · rw [ha, hb]
        exact .refl _
      · rw [ha, hb]
        exact hcd.emission
    · exact h.emission

theorem agree_jsxAttribute {given given' : Draft} (h : Draft.Alike context other given given')
    (hkind : given.node.kind = "jsx_attribute") :
    Agree (jsxAttribute context given) (jsxAttribute other given') := by
  have hmatching := h.matching (isPlain_of_kind hkind (by decide))
  have hnamed := Draft.alike_named hmatching.drafts
  have hwhole : wholeParts given.node =
      ((Draft.named given.children).head?.map Draft.node).toList
        ++ (((Draft.named given.children)[1]?.map Draft.node).filter fun value =>
          value.kind == "string" || value.kind == "jsx_string").toList := by
    rw [← List.head?_map, ← List.getElem?_map, ← Draft.namedChildren_eq hmatching.nodes_eq]
    unfold wholeParts
    rw [hkind]
    rfl
  have hname := hmatching.rel_whole (rel_head? hnamed)
    (by rw [hwhole]; exact List.subset_append_left _ _)
  unfold jsxAttribute
  dsimp only
  refine agree_demand hname fun name name' _ _ hname => ?_
  rw [contextText_eq hname.2]
  rcases rel_cases (rel_getElem? hnamed 1) with ⟨ha, hb⟩ | ⟨value, value', ha, hb, hvalue⟩
  · rw [ha, hb]
    exact .refl _
  · rw [ha, hb]
    refine (agree_attributeValue hvalue fun hquoted => hmatching.alike.self.1.2 _ ?_).bind fun code => .refl _
    rw [hwhole, ha, Option.map_some, Option.filter_some, if_pos hquoted]
    exact List.mem_append_right _ (Option.mem_toList.mpr rfl)

/-- A step whose code is all that is emitted. -/
theorem Agree.singleton {step step' : Emit Code} (h : Agree step step') :
    Agree (step >>= fun code => pure [code]) (step' >>= fun code => pure [code]) :=
  h.bind fun _ => .refl _

theorem agree_jsxProperty {part part' : Draft} (h : Draft.Alike context other part part') :
    Agree (jsxProperty context part) (jsxProperty other part') := by
  unfold jsxProperty
  rw [← h.kind_eq]
  split
  · next hkind => exact (agree_jsxAttribute h (beq_iff_eq.mp hkind)).singleton
  · split
    · next hkind =>
      have hchildren := (h.matching (isPlain_of_kind (beq_iff_eq.mp hkind) (by decide))).drafts
      have hspread : Option.Rel (Draft.Alike context other)
          ((Draft.named part.children).find? (·.kind == "spread_element"))
          ((Draft.named part'.children).find? (·.kind == "spread_element")) :=
        rel_find? (Draft.alike_named hchildren) fun _ _ hdraft => by rw [hdraft.kind_eq]
      rcases rel_cases hspread with ⟨ha, hb⟩ | ⟨c, d, ha, hb, hcd⟩
      · rw [ha, hb]
        exact .refl _
      · rw [ha, hb]
        exact hcd.emission.singleton
    · exact .refl _

theorem agree_jsxPropertyList {parts parts' : List Draft}
    (h : List.Forall₂ (Draft.Alike context other) parts parts') :
    Agree (jsxPropertyList context parts) (jsxPropertyList other parts') := by
  induction h with
  | nil => exact .refl _
  | cons hpart _ ih => exact (agree_jsxProperty hpart).bind fun first => ih.bind fun rest => .refl _

theorem agree_jsxProperties {parts parts' : List Draft}
    (h : List.Forall₂ (Draft.Alike context other) parts parts') :
    Agree (jsxProperties context parts) (jsxProperties other parts') :=
  (agree_jsxPropertyList (Draft.alike_named h)).bind fun _ => .refl _

/-! ## §2. Children -/

theorem agree_jsxChild {child child' : Draft} (h : Draft.Alike context other child child') :
    Agree (jsxChild child) (jsxChild child') := by
  unfold jsxChild
  rw [← h.kind_eq]
  split
  · exact .refl _
  · split
    · next hkind =>
      have hchildren := (h.matching (isPlain_of_kind (beq_iff_eq.mp hkind) (by decide))).drafts
      rcases rel_cases (alike_bracedExpression? hchildren) with ⟨ha, hb⟩ | ⟨c, d, ha, hb, hcd⟩
      · rw [ha, hb]
        exact .refl _
      · rw [ha, hb]
        exact hcd.emission.singleton
    · exact h.emission.singleton

/-- The draft is no part of the text between children. -/
def isContent (child : Draft) : Bool :=
  !isRunPart child.node

/-- The drafts are alike, and a part of the text between children holds no types. -/
structure AlikeInner (context other : Context) (child child' : Draft) : Prop where
  alike : Draft.Alike context other child child'
  run : isRunPart child.node = true → holdsTypes child.node = false

theorem AlikeInner.isContent_eq {child child' : Draft} (h : AlikeInner context other child child') :
    isContent child = isContent child' := by
  unfold isContent isRunPart
  rw [h.alike.node.isNamed_eq, h.alike.node.kind_eq]

/-- **The same text is cut out between alike children.**  The run of text that has been read up
to now starts at `position`, and the last node in it stops at `mark`. -/
theorem agree_jsxArguments {children children' : List Draft}
    (h : List.Forall₂ (AlikeInner context other) children children')
    {stop stop' position position' mark mark' : Nat}
    (hstop : Node.IsBoundary context.source stop) (hstop' : Node.IsBoundary other.source stop')
    (hrow : Node.InRow stop mark (children.map Draft.node))
    (hrow' : Node.InRow stop' mark' (children'.map Draft.node))
    (hgaps : Node.gaps context.source stop mark (children.map Draft.node)
      = Node.gaps other.source stop' mark' (children'.map Draft.node))
    (hrun : Node.SameStretch context.source other.source position mark position' mark') :
    Agree (jsxArguments context stop position (children.filter isContent))
      (jsxArguments other stop' position' (children'.filter isContent)) := by
  induction h generalizing position position' mark mark' with
  | nil =>
    have hlast : Node.SameStretch context.source other.source mark stop mark' stop' :=
      ⟨hrun.isBoundary_stop, hstop, hrun.isBoundary_stop', hstop', hrow, hrow', (List.cons.inj hgaps).1⟩
    show Agree (runArguments _) (runArguments _)
    rw [(hrun.append hlast).slice_eq]
    exact .refl _
  | @cons child child' children children' hchild _ ih =>
    obtain ⟨hstart, -, hrow⟩ := hrow
    obtain ⟨hstart', -, hrow'⟩ := hrow'
    obtain ⟨hgap, hgaps⟩ := List.cons.inj hgaps
    obtain ⟨⟨⟨hplace, -, -⟩, -⟩, ⟨hplace', -, -⟩, -⟩ := hchild.alike.node.self
    -- the run goes on up to the child
    have hfront : Node.SameStretch context.source other.source position child.node.start position'
        child'.node.start :=
      hrun.append ⟨hrun.isBoundary_stop, hplace.start_isBoundary, hrun.isBoundary_stop',
        hplace'.start_isBoundary, hstart, hstart', hgap⟩
    rw [List.filter_cons, List.filter_cons, ← hchild.isContent_eq]
    cases hcontent : isContent child with
    | false =>
      -- it goes on behind the child, which is part of it
      have htext := hchild.alike.node.text_eq (hchild.run ((Bool.not_eq_false' _).mp hcontent))
      exact ih hrow hrow' hgaps (hfront.append (hplace.sameStretch hplace' htext))
    | true =>
      -- it ends at the child, and another one starts behind it
      rw [if_pos rfl, if_pos rfl]
      unfold jsxArguments
      rw [hfront.slice_eq]
      refine .then _ fun run => (agree_jsxChild hchild.alike).bind fun own => ?_
      exact (ih hrow hrow' hgaps
        (Node.sameStretch_self hplace.stop_isBoundary hplace'.stop_isBoundary)).bind fun rest => .refl _

section InnerChildren

variable {stop position : Nat}

theorem isInnerChild_eq_isContent {start stop : Nat} {child : Draft} (hstart : start ≤ child.node.start)
    (hstop : child.node.stop ≤ stop) : isInnerChild start stop child = isContent child := by
  unfold isInnerChild isContent isRunPart Draft.isNamed Draft.kind
  rw [decide_eq_true hstart, decide_eq_true hstop]
  simp only [Bool.and_true, Bool.not_or, Bool.not_not, bne]

theorem isInnerChild_eq_false {start stop : Nat} {child : Draft}
    (h : child.node.start < start ∨ stop < child.node.stop) : isInnerChild start stop child = false := by
  unfold isInnerChild
  rcases h with h | h
  · rw [decide_eq_false (Nat.not_le.mpr h)]
    simp only [Bool.and_false, Bool.false_and]
  · rw [decide_eq_false (Nat.not_le.mpr h)]
    simp only [Bool.and_false, Bool.false_and]

/-- The children between two others are those that stand between these in the row. -/
theorem filter_isInnerChild {front mid back : List Draft} {left right : Draft}
    (hrow : Node.InRow stop position ((front ++ left :: (mid ++ right :: back)).map Draft.node))
    (hleft : left.node.start < left.node.stop) (hright : right.node.start < right.node.stop) :
    (front ++ left :: (mid ++ right :: back)).filter (isInnerChild left.node.stop right.node.start)
      = mid.filter isContent := by
  rw [List.map_append, List.map_cons, List.map_append, List.map_cons] at hrow
  obtain ⟨hfront, -, hrest⟩ := hrow.split
  obtain ⟨hmid, -, hback⟩ := hrest.split
  have hnone : ∀ child, (child ∈ front ∨ child = left ∨ child = right ∨ child ∈ back) →
      isInnerChild left.node.stop right.node.start child = false := by
    rintro child (hmem | rfl | rfl | hmem)
    · have hbounds := hfront.bounds (List.mem_map_of_mem hmem)
      exact isInnerChild_eq_false (.inl (by omega))
    · exact isInnerChild_eq_false (.inl hleft)
    · exact isInnerChild_eq_false (.inr hright)
    · have hbounds := hback.bounds (List.mem_map_of_mem hmem)
      exact isInnerChild_eq_false (.inr (by omega))
  have hfrontNone : front.filter (isInnerChild left.node.stop right.node.start) = [] :=
    List.filter_eq_nil_iff.mpr fun child hmem => by rw [hnone child (.inl hmem)]; exact Bool.false_ne_true
  have hbackNone : back.filter (isInnerChild left.node.stop right.node.start) = [] :=
    List.filter_eq_nil_iff.mpr fun child hmem => by
      rw [hnone child (.inr (.inr (.inr hmem)))]
      exact Bool.false_ne_true
  rw [List.filter_append, hfrontNone, List.nil_append, List.filter_cons,
    hnone left (.inr (.inl rfl)), if_neg Bool.false_ne_true, List.filter_append, List.filter_cons,
    hnone right (.inr (.inr (.inl rfl))), if_neg Bool.false_ne_true, hbackNone, List.append_nil]
  refine List.filter_congr fun child hmem => ?_
  have hbounds := hmid.bounds (List.mem_map_of_mem hmem)
  exact isInnerChild_eq_isContent hbounds.1 hbounds.2.2

/-- Nothing stands between the end of a node and an offset in front of it. -/
theorem jsxChildren_of_lt (hrow : Node.InRow stop position (drafts.map Draft.node)) {start stop : Nat}
    (h : stop < start) : jsxChildren context start stop drafts = runArguments "" := by
  have hnone : drafts.filter (isInnerChild start stop) = [] := by
    refine List.filter_eq_nil_iff.mpr fun child hmem => ?_
    have hbounds := hrow.bounds (List.mem_map_of_mem hmem)
    rw [isInnerChild_eq_false (by omega)]
    exact Bool.false_ne_true
  unfold jsxChildren
  rw [hnone]
  unfold jsxArguments
  rw [Node.slice_of_le (Nat.le_of_lt h)]

/-- Between two tags stands the same content, if the children of both nodes lie in a row with the same
gaps. -/
theorem agree_jsxChildren_between {stop' position' : Nat} {front mid back : List (Draft × Draft)}
    {left left' right right' : Draft}
    (hinner : ∀ pair ∈ front ++ (left, left') :: (mid ++ (right, right') :: back),
      AlikeInner context other pair.1 pair.2)
    (hrow : Node.InRow stop position ((front ++ (left, left') :: (mid ++ (right, right') :: back)).map
      (Draft.node ∘ Prod.fst)))
    (hrow' : Node.InRow stop' position' ((front ++ (left, left') :: (mid ++ (right, right') :: back)).map
      (Draft.node ∘ Prod.snd)))
    (hgaps : Node.gaps context.source stop position
        ((front ++ (left, left') :: (mid ++ (right, right') :: back)).map (Draft.node ∘ Prod.fst))
      = Node.gaps other.source stop' position'
        ((front ++ (left, left') :: (mid ++ (right, right') :: back)).map (Draft.node ∘ Prod.snd)))
    (hedge : left.node.start < left.node.stop) (hedge' : left'.node.start < left'.node.stop)
    (hend : right.node.start < right.node.stop) (hend' : right'.node.start < right'.node.stop) :
    Agree
      (jsxChildren context left.node.stop right.node.start
        ((front ++ (left, left') :: (mid ++ (right, right') :: back)).map Prod.fst))
      (jsxChildren other left'.node.stop right'.node.start
        ((front ++ (left, left') :: (mid ++ (right, right') :: back)).map Prod.snd)) := by
  simp only [List.map_append, List.map_cons, Function.comp_apply] at hrow hrow' hgaps ⊢
  have hmid : ∀ pair ∈ mid, AlikeInner context other pair.1 pair.2 := fun pair hpair =>
    hinner pair (List.mem_append_right _ (List.mem_cons_of_mem _ (List.mem_append_left _ hpair)))
  have hleft := hinner (left, left') (List.mem_append_right _ List.mem_cons_self)
  have hright := hinner (right, right') (List.mem_append_right _
    (List.mem_cons_of_mem _ (List.mem_append_right _ List.mem_cons_self)))
  obtain ⟨⟨⟨hplaceL, -, -⟩, -⟩, ⟨hplaceL', -, -⟩, -⟩ := hleft.alike.node.self
  obtain ⟨⟨⟨hplaceR, -, -⟩, -⟩, ⟨hplaceR', -, -⟩, -⟩ := hright.alike.node.self
  unfold jsxChildren
  rw [filter_isInnerChild (by simpa only [List.map_append, List.map_cons, List.map_map] using hrow) hedge hend,
    filter_isInnerChild (by simpa only [List.map_append, List.map_cons, List.map_map] using hrow') hedge' hend']
  have hrowMid := hrow.split.2.2.split.1
  have hrowMid' := hrow'.split.2.2.split.1
  refine agree_jsxArguments ?_ hplaceR.start_isBoundary hplaceR'.start_isBoundary
    (by rwa [List.map_map]) (by rwa [List.map_map]) ?_
    (Node.sameStretch_self hplaceL.stop_isBoundary hplaceL'.stop_isBoundary)
  · rw [List.forall₂_map_left_iff, List.forall₂_map_right_iff, List.forall₂_same]
    exact hmid
  · -- the gaps between the tags are some of the gaps in the element
    rw [Node.gaps_append, Node.gaps_append, Node.gaps_append, Node.gaps_append] at hgaps
    have hrest := (List.append_inj hgaps (by simp only [Node.length_gaps, List.length_map])).2
    rw [List.map_map, List.map_map]
    exact (List.append_inj hrest (by simp only [Node.length_gaps, List.length_map])).1

/-- **Between alike tags stands the same content.** -/
theorem agree_jsxChildren (h : Draft.Matching context other a b drafts drafts')
    (hruns : ∀ child ∈ a.children, isRunPart child = true → holdsTypes child = false)
    {left left' right right' : Draft} (hleft : (left, left') ∈ drafts.zip drafts')
    (hright : (right, right') ∈ drafts.zip drafts') (hedge : left.node.start < left.node.stop)
    (hedge' : left'.node.start < left'.node.stop) (hend : right.node.start < right.node.stop)
    (hend' : right'.node.start < right'.node.stop) :
    Agree (jsxChildren context left.node.stop right.node.start drafts)
      (jsxChildren other left'.node.stop right'.node.start drafts') := by
  have hgaps := h.assembling.gaps_eq
  have hrow := h.alike.self.1.1.inPlace.inRow
  have hrow' := h.alike.self.2.1.inPlace.inRow
  have hinner : ∀ pair ∈ drafts.zip drafts', AlikeInner context other pair.1 pair.2 := by
    intro pair hmem
    have halike := (List.forall₂_iff_zip.mp h.drafts).2 hmem
    exact ⟨halike, hruns _ (Draft.node_mem_children h.nodes_eq (List.of_mem_zip hmem).1)⟩
  rw [← h.nodes_eq] at hrow
  rw [← h.nodes_eq'] at hrow'
  -- both lists are read off the list of pairs, which is cut at the opening tag
  have hfst : drafts = (drafts.zip drafts').map Prod.fst :=
    (List.map_fst_zip (Nat.le_of_eq h.drafts.length_eq)).symm
  have hsnd : drafts' = (drafts.zip drafts').map Prod.snd :=
    (List.map_snd_zip (Nat.le_of_eq h.drafts.length_eq.symm)).symm
  clear h hruns
  generalize drafts.zip drafts' = pairs at *
  subst hfst hsnd
  rw [List.map_map] at hrow hrow'
  rw [List.map_map, List.map_map] at hgaps
  obtain ⟨front, rest, rfl⟩ := List.append_of_mem hleft
  -- the closing tag is looked for behind it
  have hbehind : right.node.start < left.node.stop ∧ right'.node.start < left'.node.stop ∨
      (right, right') ∈ rest := by
    rcases hrow.lt_or_mem hedge hright with hlt | hmem
    · exact (hrow'.lt_or_mem hedge' hright).imp_left fun hlt' => ⟨hlt, hlt'⟩
    · exact .inr hmem
  rcases hbehind with ⟨hlt, hlt'⟩ | hmem
  · -- the tags are out of order, and nothing stands between them
    rw [jsxChildren_of_lt (by rwa [List.map_map]) hlt, jsxChildren_of_lt (by rwa [List.map_map]) hlt']
    exact .refl _
  · obtain ⟨mid, back, rfl⟩ := List.append_of_mem hmem
    exact agree_jsxChildren_between hinner hrow hrow' hgaps hedge hedge' hend hend'

end InnerChildren

/-! ## §3. Elements -/

variable (hoptions : context.options = other.options)

include hoptions in
theorem factoryCall_eq (tag : String) (properties : Code) (children : List Code) :
    factoryCall context tag properties children = factoryCall other tag properties children := by
  unfold factoryCall
  rw [hoptions]

include hoptions in
theorem agree_selfClosingElement (h : Draft.Matching context other a b drafts drafts')
    (hkind : a.kind = "jsx_self_closing_element") :
    Agree (selfClosingElement context a drafts) (selfClosingElement other b drafts') := by
  have hname := h.alike.rel_whole (h.alike.childByField? h.isPlain "name") (by
    unfold wholeParts
    rw [hkind]
    exact List.Subset.refl _)
  unfold selfClosingElement
  rw [jsxTag_eq hoptions hname]
  refine (agree_jsxProperties h.drafts).bind fun properties => ?_
  rw [factoryCall_eq hoptions]
  exact .refl _

/-- Paired children are the nodes of paired drafts. -/
theorem forall₂_paired (h : Draft.Matching context other a b drafts drafts') :
    List.Forall₂ (fun child child' => ∃ pair ∈ drafts.zip drafts', pair.1.node = child ∧ pair.2.node = child')
      a.children b.children := by
  rw [← h.nodes_eq, ← h.nodes_eq', List.forall₂_map_left_iff, List.forall₂_map_right_iff]
  exact (forall₂_zip h.drafts).imp fun draft draft' hpair => ⟨_, hpair.1, rfl, rfl⟩

/-- The tokens that the content of a fragment stands between are not empty. -/
theorem fragmentEdge_lt {source : String} {node : Node} (h : IsRegular source node)
    (hkind : node.kind = "jsx_fragment") {edge : Node}
    (hedge : node.children[1]? = some edge ∨ node.children.reverse[2]? = some edge) :
    edge.start < edge.stop := by
  refine h.lt_of_mem_contentEdges edge ?_
  unfold contentEdges
  rw [hkind]
  rcases hedge with hedge | hedge
  · exact List.mem_append_left _ (Option.mem_toList.mpr hedge)
  · exact List.mem_append_right _ (Option.mem_toList.mpr hedge)

include hoptions in
theorem agree_fragmentElement (h : Draft.Matching context other a b drafts drafts')
    (hkind : a.kind = "jsx_fragment") :
    Agree (fragmentElement context a drafts) (fragmentElement other b drafts') := by
  have hkind' : b.kind = "jsx_fragment" := h.alike.kind_eq ▸ hkind
  have hregular := h.alike.self.1.1
  have hregular' := h.alike.self.2.1
  have hpaired := forall₂_paired h
  have hruns : ∀ child ∈ a.children, isRunPart child = true → holdsTypes child = false := by
    intro child hmem hrun
    refine h.alike.self.1.2 child ?_
    unfold wholeParts
    rw [hkind]
    exact List.mem_filter.mpr ⟨hmem, hrun⟩
  unfold fragmentElement
  refine agree_demand (rel_getElem? hpaired 1) fun start start' hstart hstart' hleft => ?_
  refine agree_demand (rel_getElem? (List.forall₂_reverse_iff.mpr hpaired) 2)
    fun stop stop' hstop hstop' hright => ?_
  obtain ⟨left, hleft, rfl, rfl⟩ := hleft
  obtain ⟨right, hright, rfl, rfl⟩ := hright
  refine (agree_jsxChildren h hruns hleft hright (fragmentEdge_lt hregular hkind (.inl hstart))
    (fragmentEdge_lt hregular' hkind' (.inl hstart')) (fragmentEdge_lt hregular hkind (.inr hstop))
    (fragmentEdge_lt hregular' hkind' (.inr hstop'))).bind fun arguments => ?_
  rw [factoryCall_eq hoptions, hoptions]
  exact .refl _

theorem openingTag?_eq_some {node : Node} (hnodes : drafts.map Draft.node = node.children) {opening : Draft}
    (h : (Draft.byField? "open_tag" drafts <|> drafts.head?) = some opening) :
    openingTag? node = some opening.node := by
  unfold openingTag?
  rw [Draft.childByField?_eq hnodes, ← hnodes, List.head?_map, ← map_orElse, h]
  rfl

theorem closingTag?_eq_some {node : Node} (hnodes : drafts.map Draft.node = node.children) {closing : Draft}
    (h : (Draft.byField? "close_tag" drafts <|> drafts.getLast?) = some closing) :
    closingTag? node = some closing.node := by
  unfold closingTag?
  rw [Draft.childByField?_eq hnodes, ← hnodes, List.getLast?_map, ← map_orElse, h]
  rfl

/-- The tags of an element are not empty. -/
theorem tag_lt {source : String} {node : Node} (h : IsRegular source node) (hkind : node.kind = "jsx_element")
    {tag : Node} (htag : openingTag? node = some tag ∨ closingTag? node = some tag) :
    tag.start < tag.stop := by
  refine h.lt_of_mem_contentEdges tag ?_
  unfold contentEdges
  rw [hkind]
  rcases htag with htag | htag
  · exact List.mem_append_left _ (Option.mem_toList.mpr htag)
  · exact List.mem_append_right _ (Option.mem_toList.mpr htag)

include hoptions in
theorem agree_contentElement (h : Draft.Matching context other a b drafts drafts')
    (hkind : a.kind = "jsx_element") :
    Agree (contentElement context drafts) (contentElement other drafts') := by
  have hkind' : b.kind = "jsx_element" := h.alike.kind_eq ▸ hkind
  have hregular := h.alike.self.1.1
  have hregular' := h.alike.self.2.1
  have hpairs := forall₂_zip h.drafts
  have hwhole : wholeParts a =
      ((openingTag? a).bind (·.childByField? "name")).toList ++ a.children.filter isRunPart := by
    unfold wholeParts
    rw [hkind]
    rfl
  have hruns : ∀ child ∈ a.children, isRunPart child = true → holdsTypes child = false := by
    intro child hmem hrun
    refine h.alike.self.1.2 child ?_
    rw [hwhole]
    exact List.mem_append_right _ (List.mem_filter.mpr ⟨hmem, hrun⟩)
  unfold contentElement
  refine agree_demand (rel_orElse (rel_find? hpairs fun _ _ hdraft => hdraft.2.even.hasField_eq "open_tag")
    (rel_head? hpairs)) fun opening opening' hopening hopening' hleft => ?_
  refine agree_demand (rel_orElse (rel_find? hpairs fun _ _ hdraft => hdraft.2.even.hasField_eq "close_tag")
    (rel_getLast? hpairs)) fun closing closing' hclosing hclosing' hright => ?_
  have htag := openingTag?_eq_some h.nodes_eq hopening
  have htag' := openingTag?_eq_some h.nodes_eq' hopening'
  have hend := closingTag?_eq_some h.nodes_eq hclosing
  have hend' := closingTag?_eq_some h.nodes_eq' hclosing'
  have hplain : isPlain opening.node = true := by
    refine hregular.isPlain_of_mem_openParts _ ?_
    unfold openParts
    rw [hkind]
    exact Option.mem_toList.mpr htag
  have hname : Option.Rel (AlikeWhole context.source other.source) (opening.node.childByField? "name")
      (opening'.node.childByField? "name") := by
    refine h.alike.rel_whole (hleft.2.node.childByField? hplain "name") ?_
    rw [hwhole, htag]
    exact List.subset_append_left _ _
  refine (agree_jsxProperties (hleft.2.matching hplain).drafts).bind fun properties => ?_
  refine (agree_jsxChildren h hruns hleft.1 hright.1 (tag_lt hregular hkind (.inl htag))
    (tag_lt hregular' hkind' (.inl htag')) (tag_lt hregular hkind (.inr hend))
    (tag_lt hregular' hkind' (.inr hend'))).bind fun arguments => ?_
  rw [jsxTag_eq hoptions hname, factoryCall_eq hoptions]
  exact .refl _

include hoptions in
theorem agree_jsxElement (h : Draft.Matching context other a b drafts drafts')
    (hkind : elementKinds.contains a.kind = true) :
    Agree (jsxElement context a drafts) (jsxElement other b drafts') := by
  unfold jsxElement
  rw [← h.alike.kind_eq]
  refine .then _ fun _ => ?_
  split
  · next hself => exact agree_selfClosingElement hoptions h (beq_iff_eq.mp hself)
  · next hself =>
    split
    · next hfragment => exact agree_fragmentElement hoptions h (beq_iff_eq.mp hfragment)
    · next hfragment =>
      -- the only kind of elements that is left
      have hcontent : a.kind = "jsx_element" := by
        unfold elementKinds at hkind
        rw [List.contains_cons, List.contains_cons, List.contains_cons, List.contains_nil,
          Bool.eq_false_of_not_eq_true hself, Bool.eq_false_of_not_eq_true hfragment] at hkind
        simpa only [Bool.or_false, beq_iff_eq] using hkind
      exact agree_contentElement hoptions h hcontent

end LivePreview.Lowering
