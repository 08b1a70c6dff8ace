/-
  LivePreview.Proofs.Lowering.Enumeration
  ───────────────────────────────────────
  **What the values of an enumeration refer to.**

  The value of a member is what its initialiser emits; without one it is a numeral that has
  been counted, or the last initialiser with one added for each member since (`FieldOf`).
  An initialiser is emitted like an expression anywhere else, so that each name in it is
  copied, whether it is that of a member or not:

      source   enum E { A = 1, B = A, C }
      code     const E = Object.freeze({ A: 1, B: A, C: (A) + 1 });

  The code binds `E`, and none of the members.  The names that the values refer to are those
  that the initialisers refer to (`references_of_emit`), so that the values of an enumeration
  are closed towards its members only if the initialisers are.
-/
import LivePreview.Proofs.Lowering.Trace.Kept
import LivePreview.Proofs.Pairwise

namespace LivePreview.Lowering

open LivePreview.Syntax (Node)

variable {context : Context} {root node member initializer : Node} {earlier members : List Node}

/-! ## §1. Members -/

/-- The members of an enumeration, and the comments between them. -/
def enumMembers (node : Node) : List Node :=
  ((node.childByField? "body").map Node.namedChildren).getD []

/-- The initialiser of a member. -/
def initializer? (member : Node) : Option Node :=
  if member.kind == "enum_assignment" then member.childByField? "value" <|> member.namedChildren.getLast?
  else none

theorem mem_children_of_initializer (h : initializer? member = some initializer) :
    initializer ∈ member.children := by
  unfold initializer? at h
  split at h
  · rcases Draft.eq_some_or_of_orElse h with hfound | hfound
    · exact List.mem_of_find?_eq_some hfound
    · exact (List.mem_filter.mp (List.mem_of_getLast? hfound)).1
  · cases h

theorem initializer?_of_ne (h : member.kind ≠ "enum_assignment") : initializer? member = none := by
  unfold initializer?
  exact if_neg fun hkind => h (eq_of_beq hkind)

/-- A member without initialiser. -/
def isBare (member : Node) : Bool :=
  ["property_identifier", "string", "identifier"].contains member.kind

theorem isBareMember_draft (member : Node) : isBareMember (draft context member) = isBare member := by
  unfold isBareMember isBare
  rw [kind_draft]

theorem ne_assignment_of_isBare (h : isBare member = true) : member.kind ≠ "enum_assignment" := by
  have hkinds : ∀ kind ∈ ["property_identifier", "string", "identifier"], kind ≠ "enum_assignment" := by
    decide
  exact hkinds member.kind (List.contains_iff_mem.mp h)

theorem initializer?_of_isBare (h : isBare member = true) : initializer? member = none :=
  initializer?_of_ne (ne_assignment_of_isBare h)

/-- The last initialiser among some members, and how many members without one there are behind it. -/
def lastInitializer? (members : List Node) : Option (Node × Nat) :=
  members.foldl (fun last? member =>
    match initializer? member with
    | some initializer => some (initializer, 0)
    | none => if isBare member then last?.map fun last => (last.1, last.2 + 1) else last?) none

theorem lastInitializer?_concat_some (h : initializer? member = some initializer) :
    lastInitializer? (earlier ++ [member]) = some (initializer, 0) := by
  unfold lastInitializer?
  rw [List.foldl_concat, h]

theorem lastInitializer?_concat_bare (h : isBare member = true) :
    lastInitializer? (earlier ++ [member])
      = (lastInitializer? earlier).map fun last => (last.1, last.2 + 1) := by
  unfold lastInitializer?
  rw [List.foldl_concat, initializer?_of_isBare h]
  exact if_pos h

theorem lastInitializer?_concat_other (h : initializer? member = none) (hbare : isBare member = false) :
    lastInitializer? (earlier ++ [member]) = lastInitializer? earlier := by
  unfold lastInitializer?
  rw [List.foldl_concat, h]
  exact if_neg (by rw [hbare]; exact Bool.false_ne_true)

/-- The last initialiser is that of a member. -/
theorem exists_of_lastInitializer? {count : Nat} (h : lastInitializer? earlier = some (initializer, count)) :
    ∃ member ∈ earlier, initializer? member = some initializer := by
  -- by induction from the back, where the function looks first
  induction earlier using List.reverseRecOn generalizing count with
  | nil => cases h
  | append_singleton earlier member ih =>
    have hearlier {count : Nat} (hlast : lastInitializer? earlier = some (initializer, count)) :
        ∃ other ∈ earlier ++ [member], initializer? other = some initializer := by
      obtain ⟨other, hmem, hother⟩ := ih hlast
      exact ⟨other, List.mem_append_left _ hmem, hother⟩
    cases hmember : initializer? member with
    | some other =>
      rw [lastInitializer?_concat_some hmember] at h
      cases h
      exact ⟨member, List.mem_append_right _ List.mem_cons_self, hmember⟩
    | none =>
      cases hbare : isBare member with
      | true =>
        rw [lastInitializer?_concat_bare hbare] at h
        obtain ⟨⟨_, _⟩, hlast, hpair⟩ := Option.map_eq_some_iff.mp h
        cases hpair
        exact hearlier hlast
      | false =>
        rw [lastInitializer?_concat_other hmember hbare] at h
        exact hearlier h

/-! ## §2. Fields -/

/-- The field of a member in the object: its key, and its value with one added a number of times. -/
structure EnumField where
  key : Node
  value : List Segment
  sums : Nat

/-- The code of a value with one added a number of times. -/
def summedCode (context : Context) (sums : Nat) (value : List Segment) : Code :=
  sumOf^[sums] (spelled context.source value)

/-- The code of a field. -/
def EnumField.code (context : Context) (field : EnumField) : Code :=
  memberField context field.key (summedCode context field.sums field.value)

/-- Counting goes on from the start, or from a numeral. -/
def CountsOn (earlier : List Node) : Prop :=
  ∀ initializer count, lastInitializer? earlier = some (initializer, count) → initializer.kind = "number"

/-- The value that a member without initialiser takes behind others: a numeral that has been counted, or
the last initialiser with one added for each member since. -/
inductive Taken (context : Context) (root : Node) (earlier : List Node) : Nat → List Segment → Prop where
  | counted {text : String} {start stop sums : Nat} (hcounts : CountsOn earlier) (h : IsCounted text) :
    Taken context root earlier sums [.made start stop (.ofText text)]
  | added {initializer : Node} {value : List Segment} {count : Nat}
    (hlast : lastInitializer? earlier = some (initializer, count))
    (hkind : initializer.kind ∉ ["number", "string", "template_string"])
    (hvalue : IsCopy context root initializer value) : Taken context root earlier (count + 1) value

/-- The field of a member behind some others. -/
inductive FieldOf (context : Context) (root : Node) (earlier : List Node) (member : Node) :
    EnumField → Prop where
  | own {initializer key : Node} {value : List Segment} (hkind : member.kind = "enum_assignment")
    (hkey : (member.childByField? "name" <|> member.namedChildren.head?) = some key)
    (hinitializer : initializer? member = some initializer) (hvalue : IsCopy context root initializer value) :
    FieldOf context root earlier member ⟨key, value, 0⟩
  | taken {value : List Segment} {sums : Nat} (hbare : isBare member = true)
    (hvalue : Taken context root earlier sums value) :
    FieldOf context root earlier member ⟨member, value, sums⟩

/-- The fields of members behind some others, in order. -/
inductive FieldsOf (context : Context) (root : Node) : List Node → List Node → List EnumField → Prop where
  | nil {earlier : List Node} : FieldsOf context root earlier [] []
  /-- A comment is no member. -/
  | skip {earlier members : List Node} {other : Node} {fields : List EnumField}
    (hkind : other.kind ≠ "enum_assignment") (hbare : isBare other = false)
    (hrest : FieldsOf context root (earlier ++ [other]) members fields) :
    FieldsOf context root earlier (other :: members) fields
  | cons {earlier members : List Node} {member : Node} {field : EnumField} {fields : List EnumField}
    (hfield : FieldOf context root earlier member field)
    (hrest : FieldsOf context root (earlier ++ [member]) members fields) :
    FieldsOf context root earlier (member :: members) (field :: fields)

/-! ## §3. What a member takes -/

/-- The value that the next member takes if it has no initialiser. -/
def NextValue.Follows (context : Context) (root : Node) (earlier : List Node) : NextValue → Prop
  | .numeral text => CountsOn earlier ∧ IsCounted text
  | .value code => ∃ sums value, Taken context root earlier sums value ∧ code = summedCode context sums value
  | .unknown => True

theorem CountsOn.concat_bare (h : CountsOn earlier) (hbare : isBare member = true) :
    CountsOn (earlier ++ [member]) := by
  intro initializer count hlast
  rw [lastInitializer?_concat_bare hbare] at hlast
  obtain ⟨⟨first, number⟩, hfound, hpair⟩ := Option.map_eq_some_iff.mp hlast
  cases hpair
  exact h first number hfound

theorem Taken.concat_bare {sums : Nat} {value : List Segment} (h : Taken context root earlier sums value)
    (hbare : isBare member = true) : Taken context root (earlier ++ [member]) (sums + 1) value := by
  cases h with
  | counted hcounts h => exact .counted (hcounts.concat_bare hbare) h
  | added hlast hkind hvalue =>
    refine .added ?_ hkind hvalue
    rw [lastInitializer?_concat_bare hbare, hlast]
    rfl

/-- A comment makes no difference to the member behind it. -/
theorem NextValue.Follows.concat_other {next : NextValue} (h : next.Follows context root earlier)
    (hmember : initializer? member = none) (hbare : isBare member = false) :
    next.Follows context root (earlier ++ [member]) := by
  have hlast : lastInitializer? (earlier ++ [member]) = lastInitializer? earlier :=
    lastInitializer?_concat_other hmember hbare
  have hcounts : CountsOn earlier → CountsOn (earlier ++ [member]) := by
    unfold CountsOn
    rw [hlast]
    exact id
  cases next with
  | numeral text => exact h.imp_left hcounts
  | value code =>
    obtain ⟨sums, value, htaken, hcode⟩ := h
    refine ⟨sums, value, ?_, hcode⟩
    cases htaken with
    | counted hearlier h => exact .counted (hcounts hearlier) h
    | added hfound hkind hvalue => exact .added (hlast.trans hfound) hkind hvalue
  | unknown => exact h

theorem follows_afterNumeral {text : String} {next : NextValue} (hcounts : CountsOn earlier)
    (h : NextValue.afterNumeral text = .ok next) : next.Follows context root earlier := by
  rcases counted_afterNumeral h with rfl | ⟨digits, rfl, hcounted⟩
  · exact trivial
  · exact ⟨hcounts, hcounted⟩

theorem sumOf_summedCode (sums : Nat) (value : List Segment) :
    sumOf (summedCode context sums value) = summedCode context (sums + 1) value := by
  unfold summedCode
  rw [Function.iterate_succ_apply']

/-- What a member without initialiser takes, and what follows it. -/
theorem follows_take? {next following : NextValue} {code : Code} (h : next.Follows context root earlier)
    (hbare : isBare member = true) (htake : next.take? = .ok (some (code, following))) :
    (∃ sums value, Taken context root earlier sums value ∧ code = summedCode context sums value) ∧
      following.Follows context root (earlier ++ [member]) := by
  cases next with
  | numeral text =>
    -- a numeral that cannot be counted on is added to, like any other value
    obtain ⟨hcounts, hcounted⟩ := h
    have htaken (sums : Nat) : Taken context root earlier sums [.made 0 0 (.ofText text)] :=
      .counted hcounts hcounted
    have hcode : Code.ofText text = summedCode context 0 [.made 0 0 (.ofText text)] :=
      (List.append_nil _).symm
    unfold NextValue.take? at htake
    dsimp only at htake
    split at htake
    · obtain ⟨following, hfollowing, hpair⟩ := Result.bind_eq_ok_iff.mp htake
      cases hpair
      exact ⟨⟨0, _, htaken 0, hcode⟩, follows_afterNumeral (hcounts.concat_bare hbare) hfollowing⟩
    · cases htake
      exact ⟨⟨0, _, htaken 0, hcode⟩, 1, _, (htaken 0).concat_bare hbare,
        (congrArg sumOf hcode).trans (sumOf_summedCode 0 _)⟩
  | value code =>
    cases htake
    obtain ⟨sums, value, htaken, rfl⟩ := h
    exact ⟨⟨sums, value, htaken, rfl⟩, sums + 1, value, htaken.concat_bare hbare, sumOf_summedCode sums value⟩
  | unknown => cases htake

/-- What follows a member with an initialiser. -/
theorem follows_nextAfter {value : List Segment} {next : NextValue}
    (hmember : initializer? member = some initializer) (hvalue : IsCopy context root initializer value)
    (hnext : nextAfter context initializer (spelled context.source value) = .ok next) :
    next.Follows context root (earlier ++ [member]) := by
  have hlast : lastInitializer? (earlier ++ [member]) = some (initializer, 0) :=
    lastInitializer?_concat_some hmember
  unfold nextAfter at hnext
  split at hnext
  · next hnumber =>
    have hcounts : CountsOn (earlier ++ [member]) := by
      intro other count hother
      cases hlast.symm.trans hother
      exact eq_of_beq hnumber
    exact follows_afterNumeral hcounts hnext
  · next hnumber =>
    split at hnext
    · cases hnext
      exact trivial
    · next hstring =>
      cases hnext
      have hkind : initializer.kind ∉ ["number", "string", "template_string"] := by
        simpa using And.intro hnumber hstring
      exact ⟨1, value, .added hlast hkind hvalue, rfl⟩

/-! ## §4. The fields of an enumeration -/

theorem byField?_children_draft (name : String) (node : Node) :
    Draft.byField? name (draft context node).children = (node.childByField? name).map (draft context) := by
  have hfield : Draft.hasField name ∘ draft context = (·.field? == some name) := by
    funext child
    rw [Function.comp_apply, hasField_draft]
  unfold Draft.byField? Node.childByField?
  rw [children_draft, List.find?_map, hfield]

theorem named_children_draft (node : Node) :
    Draft.named (draft context node).children = node.namedChildren.map (draft context) := by
  rw [children_draft, named_map_draft]
  rfl

theorem demand_map {α β : Type} (f : α → β) (a? : Option α) :
    demand (a?.map f) = do return f (← demand a?) := by
  cases a? <;> rfl

/-- The rule for a member with an initialiser. -/
theorem enumFields_assignment (next : NextValue) (hkind : member.kind = "enum_assignment") :
    enumFields context next ((member :: members).map (draft context)) = (do
      let key ← demand (member.childByField? "name" <|> member.namedChildren.head?)
      let initializer ← demand (initializer? member)
      let value ← emit context initializer
      let following ← nextAfter context initializer value
      let fields ← enumFields context following (members.map (draft context))
      return memberField context key value :: fields) := by
  have hassignment : ((draft context member).kind == "enum_assignment") = true := by
    rw [kind_draft, hkind]
    rfl
  rw [List.map_cons, enumFields, if_pos hassignment, named_children_draft, byField?_children_draft,
    byField?_children_draft]
  dsimp only
  rw [List.head?_map, List.getLast?_map, ← map_orElse, ← map_orElse, demand_map, demand_map, initializer?,
    if_pos (beq_iff_eq.mpr hkind)]
  simp only [bind_assoc, pure_bind, node_draft]
  rfl

/-- The rule for a member without one. -/
theorem enumFields_bare (next : NextValue) (hbare : isBare member = true) :
    enumFields context next ((member :: members).map (draft context)) = (do
      (← next.take?).elim (reject context member .uninitializedMember) fun taken => do
        let fields ← enumFields context taken.2 (members.map (draft context))
        return memberField context member taken.1 :: fields) := by
  have hkind : ¬ ((draft context member).kind == "enum_assignment") = true := by
    intro hkind
    rw [kind_draft] at hkind
    exact ne_assignment_of_isBare hbare (eq_of_beq hkind)
  rw [List.map_cons, enumFields, if_neg hkind, if_pos ((isBareMember_draft member).trans hbare), node_draft]
  refine bind_congr fun taken => ?_
  cases taken <;> rfl

/-- The rule for a node that is no member. -/
theorem enumFields_other (next : NextValue) (hkind : member.kind ≠ "enum_assignment")
    (hbare : isBare member = false) :
    enumFields context next ((member :: members).map (draft context))
      = enumFields context next (members.map (draft context)) := by
  have hkind : ¬ ((draft context member).kind == "enum_assignment") = true := by
    rwa [kind_draft, beq_iff_eq]
  rw [List.map_cons, enumFields, if_neg hkind, isBareMember_draft, hbare]
  rfl

/-- Members behind some others have their fields, if what the first one may take follows the others. -/
theorem yields_fieldsOf (hplaced : ∀ node ∈ root.preorder, node.InPlace context.source) {next : NextValue}
    (hnext : next.Follows context root earlier) (hmembers : ∀ member ∈ members, member ∈ root.preorder) :
    Yields (enumFields context next (members.map (draft context))) fun codes =>
      ∃ fields : List EnumField, codes = fields.map (EnumField.code context) ∧
        FieldsOf context root earlier members fields := by
  -- by induction on the members, each of which joins the earlier ones
  induction members generalizing next earlier with
  | nil => exact yields_pure ⟨[], rfl, .nil⟩
  | cons member members ih =>
    obtain ⟨hmember, hrest⟩ := List.forall_mem_cons.mp hmembers
    by_cases hkind : member.kind = "enum_assignment"
    · rw [enumFields_assignment next hkind]
      refine yields_demand.bind fun key hkey => yields_demand.bind fun initializer hinitializer => ?_
      have hmem := Node.mem_preorder_of_child hmember (mem_children_of_initializer hinitializer)
      refine (yields_isCopy hplaced hmem).bind fun code hemission => yields_lift.bind
        fun following hfollowing => ?_
      obtain ⟨segments, hcopy, hcode⟩ := hemission
      rw [hcode] at hfollowing
      have hfollows : following.Follows context root (earlier ++ [member]) :=
        follows_nextAfter hinitializer hcopy hfollowing
      refine (ih hfollows hrest).map fun codes hcodes => ?_
      obtain ⟨fields, hcodes, hfields⟩ := hcodes
      refine ⟨⟨key, segments, 0⟩ :: fields, ?_, .cons (.own hkind hkey hinitializer hcopy) hfields⟩
      rw [List.map_cons, hcodes, hcode]
      rfl
    · by_cases hbare : isBare member = true
      · rw [enumFields_bare next hbare]
        refine yields_lift.bind fun taken htaken => ?_
        cases taken with
        | none => exact yields_reject
        | some pair =>
          obtain ⟨⟨sums, value, hvalue, hcode⟩, hfollows⟩ := follows_take? hnext hbare htaken
          refine (ih hfollows hrest).map fun codes hcodes => ?_
          obtain ⟨fields, hcodes, hfields⟩ := hcodes
          refine ⟨⟨member, value, sums⟩ :: fields, ?_, .cons (.taken hbare hvalue) hfields⟩
          rw [List.map_cons, hcodes, hcode]
          rfl
      · have hbare := (Bool.not_eq_true _).mp hbare
        rw [enumFields_other next hkind hbare]
        have hfollows := hnext.concat_other (initializer?_of_ne hkind) hbare
        refine (ih hfollows hrest).imp fun codes hcodes => ?_
        obtain ⟨fields, hcodes, hfields⟩ := hcodes
        exact ⟨fields, hcodes, .skip hkind hbare hfields⟩

/-- The rule for an enumeration, in terms of its members. -/
theorem emit_enumDeclaration (hkind : node.kind = "enum_declaration") :
    emit context node = (do
      let fields ← enumFields context (.numeral "0") ((enumMembers node).map (draft context))
      let name ← demand (node.childByField? "name")
      return Code.ofText ("const " ++ context.text name ++ " = Object.freeze(\x7b ")
        ++ Code.joinWith ", " fields ++ Code.ofText " \x7d);") := by
  have hdrafts : ((Draft.byField? "body" (node.children.map (draft context))).map fun body =>
      Draft.named body.children).getD [] = (enumMembers node).map (draft context) := by
    rw [← children_draft, byField?_children_draft]
    unfold enumMembers
    cases node.childByField? "body" with
    | none => rfl
    | some body => exact named_children_draft body
  rw [emit_eq, emission_of_construct hkind (by decide), constructEmission, hkind]
  show enumDeclaration context node (node.children.map (draft context)) = _
  unfold enumDeclaration
  rw [hdrafts]

/-- **The fields of an enumeration.**  Each member has one, in order, and there is nothing else in the
object. -/
theorem yields_enumDeclaration_fieldsOf (hplaced : ∀ other ∈ node.preorder, other.InPlace context.source)
    (hkind : node.kind = "enum_declaration") :
    Yields (emit context node) fun code => ∃ name fields, node.childByField? "name" = some name ∧
      code = Code.ofText ("const " ++ context.text name ++ " = Object.freeze(\x7b ")
        ++ Code.joinWith ", " (fields.map (EnumField.code context)) ++ Code.ofText " \x7d);" ∧
      FieldsOf context node [] (enumMembers node) fields := by
  have hmembers : ∀ member ∈ enumMembers node, member ∈ node.preorder := by
    intro member hmember
    unfold enumMembers at hmember
    cases hbody : node.childByField? "body" with
    | none =>
      rw [hbody] at hmember
      exact absurd hmember List.not_mem_nil
    | some body =>
      rw [hbody] at hmember
      have hchild := List.mem_of_find?_eq_some hbody
      exact Node.mem_preorder_of_child (Node.mem_preorder_of_child (Node.mem_preorder_self node) hchild)
        (List.mem_filter.mp hmember).1
  have hfirst : (NextValue.numeral "0").Follows context node [] := ⟨nofun, .inl rfl⟩
  rw [emit_enumDeclaration hkind]
  refine (yields_fieldsOf hplaced hfirst hmembers).bind fun codes hcodes => ?_
  obtain ⟨fields, hcodes, hfields⟩ := hcodes
  refine yields_demand.map fun name hname => ⟨name, fields, hname, ?_, hfields⟩
  rw [hcodes]

/-! ## §5. References -/

/-- The token refers to a variable by its name. -/
def isReference (token : Node) : Bool :=
  token.kind == "identifier" || token.kind == "shorthand_property_identifier"

/-- One of the copied tokens refers to the name. -/
def Mentions (context : Context) (segments : List Segment) (name : String) : Prop :=
  ∃ token, .token token ∈ segments ∧ isReference token = true ∧ context.text token = name

/-- The node keeps a token that refers to the name. -/
def Refers (context : Context) (node : Node) (name : String) : Prop :=
  ∃ token, KeepsToken context node token ∧ isReference token = true ∧ context.text token = name

/-- An initialiser of one of the members refers to the name. -/
def InitializersRefer (context : Context) (members : List Node) (name : String) : Prop :=
  ∃ member ∈ members, ∃ initializer, initializer? member = some initializer ∧ Refers context initializer name

/-- A construct that an initialiser of one of the members keeps is remade, and a token in it refers to
the name. -/
def RemadeRefer (context : Context) (members : List Node) (name : String) : Prop :=
  ∃ member ∈ members, ∃ initializer, initializer? member = some initializer ∧
    ∃ token, InRemade context initializer token ∧ isReference token = true ∧ context.text token = name

/-- Each initialiser is the value of one of the fields. -/
theorem FieldsOf.exists_copy {fields : List EnumField} (h : FieldsOf context root earlier members fields) :
    ∀ member ∈ members, ∀ initializer, initializer? member = some initializer →
      ∃ field ∈ fields, IsCopy context root initializer field.value := by
  induction h with
  | nil => exact fun _ hmember => absurd hmember List.not_mem_nil
  | skip hkind _ _ ih =>
    intro member hmember initializer hinitializer
    rcases List.mem_cons.mp hmember with rfl | hmember
    · exact absurd ((initializer?_of_ne hkind).symm.trans hinitializer) (Option.some_ne_none _).symm
    · exact ih member hmember initializer hinitializer
  | cons hfield _ ih =>
    intro member hmember initializer hinitializer
    rcases List.mem_cons.mp hmember with rfl | hmember
    · cases hfield with
      | own _ _ hown hvalue =>
        cases hown.symm.trans hinitializer
        exact ⟨_, List.mem_cons_self, hvalue⟩
      | taken hbare _ =>
        exact absurd ((initializer?_of_isBare hbare).symm.trans hinitializer) (Option.some_ne_none _).symm
    · obtain ⟨field, hmem, hcopy⟩ := ih member hmember initializer hinitializer
      exact ⟨field, List.mem_cons_of_mem _ hmem, hcopy⟩

/-- The value of a field is one of the initialisers, or holds no token of the source. -/
theorem FieldOf.copy_or_counted {field : EnumField} (h : FieldOf context root earlier member field) :
    (∃ other ∈ earlier ++ [member], ∃ initializer, initializer? other = some initializer ∧
      IsCopy context root initializer field.value) ∨ ∀ token, .token token ∉ field.value := by
  cases h with
  | own _ _ hinitializer hvalue =>
    exact .inl ⟨member, List.mem_append_right _ List.mem_cons_self, _, hinitializer, hvalue⟩
  | taken _ hvalue =>
    cases hvalue with
    | counted _ _ => exact .inr fun token hmem => nomatch List.mem_singleton.mp hmem
    | added hlast _ hvalue =>
      obtain ⟨other, hmem, hinitializer⟩ := exists_of_lastInitializer? hlast
      exact .inl ⟨other, List.mem_append_left _ hmem, _, hinitializer, hvalue⟩

theorem FieldsOf.copy_or_counted {fields : List EnumField}
    (h : FieldsOf context root earlier members fields) :
    ∀ field ∈ fields, (∃ other ∈ earlier ++ members, ∃ initializer, initializer? other = some initializer ∧
      IsCopy context root initializer field.value) ∨ ∀ token, .token token ∉ field.value := by
  induction h with
  | nil => exact fun _ hfield => absurd hfield List.not_mem_nil
  | skip _ _ _ ih => rwa [List.append_assoc] at ih
  | @cons earlier members member _ _ hfield _ ih =>
    rw [List.append_assoc] at ih
    refine List.forall_mem_cons.mpr ⟨hfield.copy_or_counted.imp_left ?_, ih⟩
    rintro ⟨other, hmem, hcopy⟩
    refine ⟨other, ?_, hcopy⟩
    rw [← List.singleton_append, ← List.append_assoc]
    exact List.mem_append_left _ hmem

/-- **The values of an enumeration refer to what its initialisers refer to, by the same names.**  A
member that an initialiser names is neither replaced by its value nor looked up in the object, and
a value names a member only if an initialiser does, or a remade construct in one. -/
theorem references_of_emit {before after : State} {code : Code} (hkind : node.kind = "enum_declaration")
    (hplaced : ∀ other ∈ node.preorder, other.InPlace context.source)
    (hok : (emit context node).run before = .ok (code, after)) :
    ∃ name fields, node.childByField? "name" = some name ∧
      code = Code.ofText ("const " ++ context.text name ++ " = Object.freeze(\x7b ")
        ++ Code.joinWith ", " (fields.map (EnumField.code context)) ++ Code.ofText " \x7d);" ∧
      FieldsOf context node [] (enumMembers node) fields ∧
      (∀ text, InitializersRefer context (enumMembers node) text →
        ∃ field ∈ fields, Mentions context field.value text) ∧
      ∀ text, (∃ field ∈ fields, Mentions context field.value text) →
        InitializersRefer context (enumMembers node) text ∨ RemadeRefer context (enumMembers node) text := by
  obtain ⟨-, name, fields, hname, hcode, hfields⟩ :=
    yields_enumDeclaration_fieldsOf hplaced hkind before code after (Nat.zero_le _) hok
  refine ⟨name, fields, hname, hcode, hfields, ?_, ?_⟩
  · rintro text ⟨member, hmember, initializer, hinitializer, token, hkept, hreference⟩
    obtain ⟨field, hfield, hcopy⟩ := hfields.exists_copy member hmember initializer hinitializer
    exact ⟨field, hfield, token, hcopy.kept token hkept, hreference⟩
  · rintro text ⟨field, hfield, token, htoken, hreference⟩
    rcases hfields.copy_or_counted field hfield with
      ⟨member, hmember, initializer, hinitializer, hcopy⟩ | hcounted
    · rcases hcopy.only token htoken with hkept | hremade
      · exact .inl ⟨member, hmember, initializer, hinitializer, token, hkept, hreference⟩
      · exact .inr ⟨member, hmember, initializer, hinitializer, token, hremade, hreference⟩
    · exact absurd htoken (hcounted token)

/-- The tree of `enum E{A=1,B=A}`. -/
def aliasEnum : Node :=
  ⟨"enum_declaration", true, false, 0, 15, none,
    [⟨"enum", false, false, 0, 4, none, []⟩,
      ⟨"identifier", true, false, 5, 6, some "name", []⟩,
      ⟨"enum_body", true, false, 6, 15, some "body",
        [⟨"\x7b", false, false, 6, 7, none, []⟩,
          ⟨"enum_assignment", true, false, 7, 10, none,
            [⟨"property_identifier", true, false, 7, 8, some "name", []⟩,
              ⟨"=", false, false, 8, 9, none, []⟩,
              ⟨"number", true, false, 9, 10, some "value", []⟩]⟩,
          ⟨",", false, false, 10, 11, none, []⟩,
          ⟨"enum_assignment", true, false, 11, 14, none,
            [⟨"property_identifier", true, false, 11, 12, some "name", []⟩,
              ⟨"=", false, false, 12, 13, none, []⟩,
              ⟨"identifier", true, false, 13, 14, some "value", []⟩]⟩,
          ⟨"\x7d", false, false, 14, 15, none, []⟩]⟩]⟩

theorem inPlace_aliasEnum : ∀ node ∈ aliasEnum.preorder, node.InPlace "enum E\x7bA=1,B=A\x7d" := by
  decide +kernel

theorem emit_aliasEnum :
    (emit ⟨"enum E\x7bA=1,B=A\x7d", {}⟩ aliasEnum).run {}
      = .ok (Code.ofText "const E = Object.freeze(\x7b A: 1, B: A \x7d);", {}) := by
  decide +kernel

/-- The initialiser of `B` refers to `A`, and so does its value. -/
theorem references_of_emit_alias :
    let context : Context := ⟨"enum E\x7bA=1,B=A\x7d", {}⟩
    ∃ name fields, aliasEnum.childByField? "name" = some name ∧
      Code.ofText "const E = Object.freeze(\x7b A: 1, B: A \x7d);"
        = Code.ofText ("const " ++ context.text name ++ " = Object.freeze(\x7b ")
          ++ Code.joinWith ", " (fields.map (EnumField.code context)) ++ Code.ofText " \x7d);" ∧
      FieldsOf context aliasEnum [] (enumMembers aliasEnum) fields ∧
      ∃ field ∈ fields, Mentions context field.value "A" := by
  intro context
  obtain ⟨name, fields, hname, hcode, hfields, hmentions, -⟩ :=
    references_of_emit rfl inPlace_aliasEnum emit_aliasEnum
  refine ⟨name, fields, hname, hcode, hfields, hmentions "A" ?_⟩
  have hreference : KeepsToken context ⟨"identifier", true, false, 13, 14, some "value", []⟩
      ⟨"identifier", true, false, 13, 14, some "value", []⟩ :=
    ⟨.self _, rfl, isAssembled_of_kind rfl (by decide)⟩
  refine ⟨_, List.mem_of_getElem? (i := 1) rfl, _, rfl, _, hreference, rfl, rfl⟩

/-- The initialiser of `B` is the name of the first member, and its value is this name, which nothing in
the code binds. -/
theorem lower_alias_unbound :
    let source := "enum E\x7bA=1,B=A\x7d"
    let program : Node := ⟨"program", true, false, 0, 15, none, [aliasEnum]⟩
    (enumMembers aliasEnum).map (fun member => (initializer? member).map (Node.text source))
        = [some "1", some "A"] ∧
      (enumMembers aliasEnum).map (fun member => (member.childByField? "name").map (Node.text source))
        = [some "A", some "B"] ∧
      lower (fun _ _ => program) .typescript {} source
        = .ok ⟨"const E = Object.freeze(\x7b A: 1, B: A \x7d);", [], [], false⟩ := by
  refine ⟨rfl, rfl, ?_⟩
  unfold lower
  rw [String.contains_char_eq, if_neg (by decide)]
  decide +kernel

end LivePreview.Lowering
