/-
  LivePreview.Proofs.Lowering.Types.Declaration
  ─────────────────────────────────────────────
  **Constructors and enumerations do not depend on types.**

  Whether a parameter is a property follows from the kinds of its children, and types are
  among these with their kinds.  The names of properties and members, and the numerals
  that further members are counted on from, are copied in one piece.
-/
import LivePreview.Proofs.Lowering.Types.Agreement

namespace LivePreview.Lowering

open LivePreview.Syntax (Node)

variable {context other : Context} {a b : Node} {drafts drafts' : List Draft}

/-! ## §1. Constructors -/

theorem isPropertyModifier_eq {source other : String} (h : Alike source other a b) :
    isPropertyModifier a = isPropertyModifier b := by
  unfold isPropertyModifier
  rw [h.kind_eq, h.isToken_eq]

/-- Only parameters are properties. -/
theorem parameterProperty?_eq_none
    (h : (a.kind == "required_parameter" || a.kind == "optional_parameter") = false) :
    parameterProperty? context a = none := by
  unfold parameterProperty?
  rw [h, Bool.false_and]
  cases a.childByField? "pattern" <;> rfl

/-- Alike parameters are the same properties. -/
theorem parameterProperty?_eq (h : Alike context.source other.source a b)
    (hname : ∀ pattern, a.childByField? "pattern" = some pattern → pattern.kind = "identifier" →
      holdsTypes pattern = false) :
    parameterProperty? context a = parameterProperty? other b := by
  cases hparameter : a.kind == "required_parameter" || a.kind == "optional_parameter" with
  | false =>
    -- a node that is no parameter need not be plain, but then its kind says enough
    rw [parameterProperty?_eq_none hparameter]
    rw [h.kind_eq] at hparameter
    rw [parameterProperty?_eq_none hparameter]
  | true =>
    have hplain : isPlain a = true := by
      rcases Bool.or_eq_true_iff.mp hparameter with hkind | hkind <;>
        exact isPlain_of_kind (beq_iff_eq.mp hkind) (by decide)
    have hmodifier : a.children.any isPropertyModifier = b.children.any isPropertyModifier :=
      any_eq_of_forall₂ (h.children hplain) fun _ _ => isPropertyModifier_eq
    unfold parameterProperty?
    rcases rel_cases (h.childByField? hplain "pattern") with ⟨ha, hb⟩ | ⟨c, d, ha, hb, hcd⟩
    · rw [ha, hb]
      rfl
    · have htext : (c.kind == "identifier") = true → context.text c = other.text d := fun hidentifier =>
        contextText_eq ⟨hcd, hname c ha (beq_iff_eq.mp hidentifier)⟩
      rw [ha, hb, h.kind_eq, hmodifier, Option.bind_eq_bind, Option.bind_some, Option.bind_some,
        ← hcd.kind_eq]
      split
      · next hproperty => rw [htext (Bool.and_eq_true_iff.mp hproperty).2]
      · rfl

/-- A statement that calls the constructor of the parent class is plain down to the call. -/
theorem isSuperCall_eq {source other : String} (h : Alike source other a b) :
    isSuperCall a = isSuperCall b := by
  unfold isSuperCall
  rw [← h.kind_eq]
  cases hkind : a.kind == "expression_statement" with
  | false => rfl
  | true =>
    have hplain := isPlain_of_kind (beq_iff_eq.mp hkind) (by decide)
    refine congrArg (true && ·) (any_eq_of_rel (rel_head? (h.namedChildren hplain)) fun c d hcd => ?_)
    rw [← hcd.kind_eq]
    cases hcall : c.kind == "call_expression" with
    | false => rfl
    | true =>
      have hplain := isPlain_of_kind (beq_iff_eq.mp hcall) (by decide)
      exact congrArg (true && ·) <| any_eq_of_rel (hcd.childByField? hplain "function") fun _ _ hpart => by
        rw [hpart.kind_eq]

/-- The assignments of the properties are put behind the same child, or into the same brace. -/
theorem agree_constructorBody {added : String} {body body' : Draft}
    (h : Draft.Matching context other body.node body'.node body.children body'.children) :
    Agree (constructorBody context added body) (constructorBody other added body') := by
  have hsuper : body.node.namedChildren.head?.any isSuperCall = body'.node.namedChildren.head?.any isSuperCall :=
    any_eq_of_rel (rel_head? (h.alike.namedChildren h.isPlain)) fun _ _ => isSuperCall_eq
  unfold constructorBody
  rw [hsuper]
  split
  · refine (h.assembling.replaceFirst (fun _ _ hdraft => hdraft.node.isNamed_eq) fun _ _ hdraft => ?_).agree
    exact hdraft.emission.bind fun _ => .refl _
  · exact (h.assembling.replaceEach (fun _ _ hdraft => hdraft.isTokenAmong_eq _) fun _ _ _ => .refl _).agree

theorem wholeParts_method (hkind : a.kind = "method_definition") :
    wholeParts a = (a.childByField? "name").toList ++ parameterNames a := by
  unfold wholeParts
  rw [hkind]
  rfl

section Method

variable (h : Draft.Matching context other a b drafts drafts') (hkind : a.kind = "method_definition")
include h hkind

theorem isPlain_methodPart {name : String} (hname : name = "parameters" ∨ name = "body") {part : Node}
    (hpart : part ∈ childrenIn name a) : isPlain part = true := by
  refine h.alike.self.1.1.isPlain_of_mem_openParts part ?_
  unfold openParts
  rw [hkind]
  rcases hname with rfl | rfl
  · exact List.mem_append_left _ hpart
  · exact List.mem_append_right _ hpart

theorem parameterProperties_eq : parameterProperties context a = parameterProperties other b := by
  unfold parameterProperties
  rcases rel_cases (h.alike.childByField? h.isPlain "parameters") with ⟨ha, hb⟩ | ⟨c, d, ha, hb, hcd⟩
  · rw [ha, hb]
  · have hopen : isPlain c = true :=
      isPlain_methodPart h hkind (.inl rfl) (mem_childrenIn_of_childByField? ha)
    rw [ha, hb]
    refine filterMap_eq_of_forall₂ (forall₂_zip (hcd.namedChildren hopen)) fun p p' ⟨hmem, hp⟩ => ?_
    refine parameterProperty?_eq hp fun pattern hpattern hidentifier => ?_
    refine h.alike.self.1.2 pattern ?_
    rw [wholeParts_method hkind]
    refine List.mem_append_right _ (List.mem_filterMap.mpr ⟨p, ?_, ?_⟩)
    · rw [ha]
      exact (List.of_mem_zip hmem).1
    · rw [hpattern, Option.filter_some, if_pos (beq_iff_eq.mpr hidentifier)]

theorem agree_methodDefinition :
    Agree (methodDefinition context a drafts) (methodDefinition other b drafts') := by
  have hname : (a.childByField? "name").any (context.text · == "constructor")
      = (b.childByField? "name").any (other.text · == "constructor") := by
    have hwhole := h.alike.rel_whole (h.alike.childByField? h.isPlain "name")
      (by rw [wholeParts_method hkind]; exact List.subset_append_left _ _)
    exact any_eq_of_rel hwhole fun _ _ hpart => by rw [contextText_eq hpart]
  have hbody := isSome_eq_of_rel (h.alike.childByField? h.isPlain "body")
  unfold methodDefinition
  dsimp only
  rw [hname, hbody, parameterProperties_eq h hkind]
  split
  · refine Draft.Assembling.agree ⟨?_, ?_⟩
    · rw [Draft.map_node_replaceFirst, Draft.map_node_replaceFirst]
      exact h.assembling.gaps_eq
    · -- the body is taken apart, so it has to be plain
      refine Draft.even_replaceFirst h.forall₂_mem (fun _ _ hdraft => hdraft.2.even)
        (fun _ _ hdraft => hdraft.2.even.hasField_eq "body") fun draft draft' hdraft hfield => ?_
      exact agree_constructorBody (hdraft.2.matching
        (isPlain_methodPart h hkind (.inr rfl) (List.mem_filter.mpr ⟨hdraft.1, hfield⟩)))
  · exact h.agree_dropTokens ["?"]

end Method

/-! ## §2. Enumerations -/

/-- The value behind a member does not depend on the types in its own value. -/
theorem nextAfter_eq {value : Code} (h : Alike context.source other.source a b)
    (hnumber : a.kind = "number" → holdsTypes a = false) :
    nextAfter context a value = nextAfter other b value := by
  unfold nextAfter
  rw [← h.kind_eq]
  split
  · next hkind =>
    have hwhole : AlikeWhole context.source other.source a b := ⟨h, hnumber (beq_iff_eq.mp hkind)⟩
    rw [contextText_eq hwhole]
  · rfl

/-- The members are alike, and a name without a value holds no types. -/
structure AlikeMember (context other : Context) (member member' : Draft) : Prop where
  alike : Draft.Alike context other member member'
  bare : isBareName member.node = true → holdsTypes member.node = false

theorem AlikeMember.isBareMember_eq {member member' : Draft} (h : AlikeMember context other member member') :
    isBareMember member = isBareMember member' := by
  unfold isBareMember
  rw [h.alike.kind_eq]

/-- The key and the value of a member are alike, and neither a key nor a numeral holds types. -/
theorem alike_assignment {member member' : Draft} (h : AlikeMember context other member member')
    (hkind : member.node.kind = "enum_assignment") :
    Option.Rel (fun key key' => Draft.Alike context other key key' ∧
          AlikeWhole context.source other.source key.node key'.node)
        (Draft.byField? "name" member.children <|> (Draft.named member.children).head?)
        (Draft.byField? "name" member'.children <|> (Draft.named member'.children).head?) ∧
      Option.Rel (fun value value' => Draft.Alike context other value value' ∧
          (value.node.kind = "number" → holdsTypes value.node = false))
        (Draft.byField? "value" member.children <|> (Draft.named member.children).getLast?)
        (Draft.byField? "value" member'.children <|> (Draft.named member'.children).getLast?) := by
  have hmatching := h.alike.matching (isPlain_of_kind hkind (by decide))
  have hnamed := Draft.alike_named hmatching.drafts
  have hkeys : (Draft.byField? "name" member.children <|> (Draft.named member.children).head?).map Draft.node
      = (member.node.childByField? "name" <|> member.node.namedChildren.head?) := by
    rw [map_orElse, ← Draft.childByField?_eq hmatching.nodes_eq, ← List.head?_map,
      ← Draft.namedChildren_eq hmatching.nodes_eq]
  have hvalues : (Draft.byField? "value" member.children
        <|> (Draft.named member.children).getLast?).map Draft.node
      = (member.node.childByField? "value" <|> member.node.namedChildren.getLast?) := by
    rw [map_orElse, ← Draft.childByField?_eq hmatching.nodes_eq, ← List.getLast?_map,
      ← Draft.namedChildren_eq hmatching.nodes_eq]
  have hwhole : wholeParts member.node =
      (member.node.childByField? "name" <|> member.node.namedChildren.head?).toList
        ++ ((member.node.childByField? "value" <|> member.node.namedChildren.getLast?).filter
          (·.kind == "number")).toList := by
    unfold wholeParts
    rw [hkind]
    rfl
  rw [← hkeys, ← hvalues] at hwhole
  constructor
  · exact hmatching.rel_whole
      (rel_orElse (Draft.alike_byField? hmatching.drafts "name") (rel_head? hnamed))
      (by rw [hwhole]; exact List.subset_append_left _ _)
  · rcases rel_cases (rel_orElse (Draft.alike_byField? hmatching.drafts "value") (rel_getLast? hnamed)) with
      ⟨ha, hb⟩ | ⟨value, value', ha, hb, hvalue⟩
    · rw [ha, hb]
      exact .none
    · rw [ha, hb]
      refine .some ⟨hvalue, fun hnumber => hmatching.alike.self.1.2 _ ?_⟩
      rw [hwhole, ha, Option.map_some, Option.filter_some, if_pos (beq_iff_eq.mpr hnumber)]
      exact List.mem_append_right _ (Option.mem_toList.mpr rfl)

/-- Alike members have the same fields. -/
theorem agree_enumFields {members members' : List Draft}
    (h : List.Forall₂ (AlikeMember context other) members members') (next : NextValue) :
    Agree (enumFields context next members) (enumFields other next members') := by
  induction h generalizing next with
  | nil => exact .refl _
  | @cons member member' members members' hmember _ ih =>
    have hkind : (member.kind == "enum_assignment") = (member'.kind == "enum_assignment") := by
      rw [hmember.alike.kind_eq]
    unfold enumFields
    rw [← hkind, ← hmember.isBareMember_eq]
    split
    · -- a member with a value of its own
      next hassignment =>
      obtain ⟨hkey, hvalue⟩ := alike_assignment hmember (beq_iff_eq.mp hassignment)
      refine agree_demand hkey fun key key' _ _ hkey => agree_demand hvalue fun value value' _ _ hvalue => ?_
      refine hvalue.1.emission.bind fun code => ?_
      rw [nextAfter_eq hvalue.1.node hvalue.2]
      refine .then _ fun following => (ih following).bind fun fields => ?_
      unfold memberField
      rw [contextText_eq hkey.2]
      exact .refl _
    · split
      · -- a member that takes the next value
        next hbare =>
        have hwhole : AlikeWhole context.source other.source member.node member'.node :=
          ⟨hmember.alike.node, hmember.bare hbare⟩
        refine .then _ fun taken => ?_
        cases taken with
        | none => exact agree_reject
        | some pair =>
          refine (ih pair.2).bind fun fields => ?_
          unfold memberField
          rw [contextText_eq hwhole]
          exact .refl _
      · exact ih next

/-- The members of an enumeration are alike. -/
theorem alike_members (h : Draft.Matching context other a b drafts drafts')
    (hkind : a.kind = "enum_declaration") :
    List.Forall₂ (AlikeMember context other)
      (((Draft.byField? "body" drafts).map fun body => Draft.named body.children).getD [])
      (((Draft.byField? "body" drafts').map fun body => Draft.named body.children).getD []) := by
  rcases rel_cases (Draft.alike_byField? h.drafts "body") with ⟨ha, hb⟩ | ⟨body, body', ha, hb, hbody⟩
  · rw [ha, hb]
    exact .nil
  · have hfound : a.childByField? "body" = some body.node := by
      rw [Draft.childByField?_eq h.nodes_eq, ha, Option.map_some]
    have hplain : isPlain body.node = true := by
      refine h.alike.self.1.1.isPlain_of_mem_openParts _ ?_
      unfold openParts
      rw [hkind]
      exact mem_childrenIn_of_childByField? hfound
    have hmatching := hbody.matching hplain
    rw [ha, hb]
    refine (forall₂_zip (Draft.alike_named hmatching.drafts)).imp fun member member' ⟨hmem, hmember⟩ =>
      ⟨hmember, fun hbare => h.alike.self.1.2 _ ?_⟩
    unfold wholeParts
    rw [hkind, hfound]
    refine List.mem_append_right _ (List.mem_filter.mpr ⟨?_, hbare⟩)
    rw [Option.map_some, Option.getD_some, Draft.namedChildren_eq hmatching.nodes_eq]
    exact List.mem_map_of_mem (List.of_mem_zip hmem).1

theorem agree_enumDeclaration (h : Draft.Matching context other a b drafts drafts')
    (hkind : a.kind = "enum_declaration") :
    Agree (enumDeclaration context a drafts) (enumDeclaration other b drafts') := by
  have hname := h.alike.rel_whole (h.alike.childByField? h.isPlain "name") (by
    unfold wholeParts
    rw [hkind]
    exact List.subset_append_left _ _)
  unfold enumDeclaration
  refine (agree_enumFields (alike_members h hkind) _).bind fun fields => ?_
  refine agree_demand hname fun name name' _ _ hname => ?_
  rw [contextText_eq hname]
  exact .refl _

end LivePreview.Lowering
