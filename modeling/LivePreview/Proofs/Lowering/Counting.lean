/-
  LivePreview.Proofs.Lowering.Counting
  ────────────────────────────────────
  **How the members of an enumeration are numbered.**

  Where every member is a bare name or has an integer literal, the bare members count on: the
  first member is zero, and each further one is one more than the member in front of it, in
  whatever base that is written (`Numbered`):

      source   enum E { A, B = 0x1f, C }
      code     const E = Object.freeze({ A: 0, B: 0x1f, C: 32 });

  The next value is kept as a text and read again for the member behind it.  A hexadecimal
  literal with the digit `e` is taken for a number with an exponent, and is then no number at
  all; and neither is a decimal literal with too many digits.  So counting stops behind such
  a literal (`countsOn`), and an enumeration is lowered exactly if no bare member follows one
  and no number is counted that is too long to be written (`emit_enum_numbered`).
-/
import LivePreview.Lowering.Module
import LivePreview.Proofs.Lowering.Enumeration
import LivePreview.Proofs.Number.Integer

namespace LivePreview.Lowering

open LivePreview.Syntax (Node)
open LivePreview.Number

/-! ## §1. Counting on from a literal -/

/-- A digit of the literal is taken for the mark of an exponent. -/
def showsExponent (literal : List Char) : Bool :=
  literal.any fun c => c == 'e' || c == 'E'

/-- Counting goes on behind the literal: none of its digits is taken for the mark of an exponent, and it
is no decimal one with too many digits. -/
def countsOn (literal : List Char) : Bool :=
  !showsExponent literal && !(isDecimal literal && maxDigits < digitCount literal)

/-- The number has a decimal text. -/
def IsWritable (n : Nat) : Prop :=
  n < Nat.pow 10 maxDigits

instance (n : Nat) : Decidable (IsWritable n) :=
  inferInstanceAs (Decidable (n < _))

theorem decimalText?_ofNat (n : Nat) :
    decimalText? ↑n = if IsWritable n then some (toString n) else none :=
  rfl

section Literals

variable {text : String} {value : Nat}

theorem isFractional_eq (h : IsInteger text.toList value) :
    isFractional text = showsExponent text.toList := by
  have hpoint : ∀ c ∈ text.toList, c ≠ '.' := by
    rintro c hc rfl
    exact absurd (h.chars.2 '.' hc) (by decide)
  unfold isFractional showsExponent
  rw [Bool.eq_iff_iff, List.any_eq_true, List.any_eq_true]
  refine exists_congr fun c => and_congr_right fun hc => ?_
  rw [beq_eq_false_iff_ne.mpr (hpoint c hc), Bool.false_or]

/-- A literal with what looks like an exponent is no number with a point or an exponent. -/
theorem read?_of_showsExponent (h : IsInteger text.toList value) (hshows : showsExponent text.toList = true) :
    Binary64.read? text = none := by
  generalize hcs : text.toList = cs at h
  cases h with
  | decimal h hzero =>
    obtain ⟨c, hc, hmark⟩ := List.any_eq_true.mp hshows
    rw [hcs] at hc
    have hdecimal := isDecimal_of_digitsOf h
    rw [Bool.or_eq_true, beq_iff_eq, beq_iff_eq] at hmark
    rcases hmark with rfl | rfl
    · exact absurd hc (not_mem_of_isDecimal (by decide) (by decide) hdecimal)
    · exact absurd hc (not_mem_of_isDecimal (by decide) (by decide) hdecimal)
  | based hmark h => exact Binary64.read?_based hmark h hcs

/-- **What is counted behind a literal.** -/
theorem afterNumeral_eq (h : IsInteger text.toList value) :
    NextValue.afterNumeral text
      = if countsOn text.toList = false then .ok .unknown
        else if IsWritable (value + 1) then .ok (.numeral (toString (value + 1)))
        else .error .numeralTooLong := by
  have hnone (hread : successor? text = .ok none) : NextValue.afterNumeral text = .ok .unknown := by
    unfold NextValue.afterNumeral
    rw [hread]
    rfl
  unfold countsOn
  cases hshows : showsExponent text.toList with
  | true =>
    refine (hnone ?_).trans (if_pos rfl).symm
    unfold successor?
    rw [isFractional_eq h, hshows, read?_of_showsExponent h hshows]
    rfl
  | false =>
    by_cases hlong : isDecimal text.toList = true ∧ maxDigits < digitCount text.toList
    · refine (hnone ?_).trans (if_pos (by simp [hlong])).symm
      unfold successor?
      rw [isFractional_eq h, hshows, readLiteral?_eq h, if_pos hlong]
      rfl
    · rw [if_neg (by simpa using hlong)]
      unfold NextValue.afterNumeral successor?
      rw [isFractional_eq h, hshows, readLiteral?_eq h, if_neg hlong]
      dsimp only [Bool.false_eq_true, ↓reduceIte]
      rw [← Int.natCast_succ, decimalText?_ofNat]
      by_cases hwritable : IsWritable (value + 1)
      · rw [if_pos hwritable, if_pos hwritable]
        rfl
      · rw [if_neg hwritable, if_neg hwritable]
        rfl

theorem isNumeral_toString (n : Nat) : isNumeral (toString n) = true := by
  have hlist := toList_toString n
  exact Binary64.isSome_read?_of_digits (by rw [hlist]; exact Nat.toDigits_ne_nil)
    (by rw [hlist]; exact isDigit_of_mem_toDigits)

end Literals

/-! ## §2. Numbered members -/

/-- A field of an enumeration whose members are numbered. -/
structure NumberedField where
  key : Node
  literal : String
  value : Nat
  /-- The literal is that of the member itself, and has not been counted. -/
  isOwn : Bool

/-- The code of a field. -/
def NumberedField.code (context : Context) (field : NumberedField) : Code :=
  memberField context field.key (Code.ofText field.literal)

/-- The initialiser is an integer literal, which denotes a number. -/
structure IsIntegerNode (context : Context) (initializer : Node) (value : Nat) : Prop where
  kind : initializer.kind = "number"
  leaf : initializer.children = []
  literal : IsInteger (context.text initializer).toList value

/-- The members have the given fields, if the first one has the given number where it has no literal of
its own: a member with a literal keeps it, and a bare one has the number behind that of the member in
front of it, in decimal. -/
inductive Numbered (context : Context) : Nat → List Node → List NumberedField → Prop where
  | nil {next : Nat} : Numbered context next [] []
  | comment {next : Nat} {comment : Node} {members : List Node} {fields : List NumberedField}
    (hkind : comment.kind = "comment") (hrest : Numbered context next members fields) :
    Numbered context next (comment :: members) fields
  | own {next value : Nat} {member key initializer : Node} {members : List Node}
    {fields : List NumberedField} (hkind : member.kind = "enum_assignment")
    (hkey : (member.childByField? "name" <|> member.namedChildren.head?) = some key)
    (hinitializer : initializer? member = some initializer) (hvalue : IsIntegerNode context initializer value)
    (hrest : Numbered context (value + 1) members fields) :
    Numbered context next (member :: members) (⟨key, context.text initializer, value, true⟩ :: fields)
  | bare {next : Nat} {member : Node} {members : List Node} {fields : List NumberedField}
    (hbare : isBare member = true) (hrest : Numbered context (next + 1) members fields) :
    Numbered context next (member :: members) (⟨member, toString next, next, false⟩ :: fields)

/-- The numbering gets through: no bare member follows a literal behind which counting stops, and no
number is counted that is too long to be written. -/
def GetsThrough : List NumberedField → Prop
  | [] => True
  | field :: fields =>
    (if countsOn field.literal.toList = false then fields.head?.all (·.isOwn) = true
      else IsWritable (field.value + 1)) ∧ GetsThrough fields

/-- The numbering gets through behind a value that may be unknown. -/
def Resumes (next : NextValue) (fields : List NumberedField) : Prop :=
  GetsThrough fields ∧ (next = .unknown → fields.head?.all (·.isOwn) = true)

/-- The value that the next bare member takes is the given number, which has a decimal text, or is unknown
since counting has stopped. -/
def NextValue.IsAt (next : NextValue) (number : Nat) : Prop :=
  next = .unknown ∨ next = .numeral (toString number) ∧ IsWritable number

/-- The step fails in every state. -/
def Fails {α : Type} (step : Emit α) : Prop :=
  ∃ failure, step = throw failure

theorem Fails.bind {α β : Type} {step : Emit α} (h : Fails step) (next : α → Emit β) : Fails (step >>= next) := by
  obtain ⟨failure, rfl⟩ := h
  exact ⟨failure, rfl⟩

section Members

variable {context : Context} {members : List Node} {field : NumberedField} {fields : List NumberedField}

/-- **Behind a literal** counting goes on, stops, or fails, and the numbering gets through accordingly. -/
theorem afterNumeral_cases (h : IsInteger field.literal.toList field.value) (fields : List NumberedField) :
    (∃ following, NextValue.afterNumeral field.literal = .ok following ∧ following.IsAt (field.value + 1) ∧
      (GetsThrough (field :: fields) ↔ Resumes following fields)) ∨
    NextValue.afterNumeral field.literal = .error .numeralTooLong ∧ ¬ GetsThrough (field :: fields) := by
  rw [afterNumeral_eq h, GetsThrough]
  by_cases hcounts : countsOn field.literal.toList = false
  · rw [if_pos hcounts, if_pos hcounts]
    exact .inl ⟨.unknown, rfl, .inl rfl, fun h => ⟨h.2, fun _ => h.1⟩, fun h => ⟨h.2 rfl, h.1⟩⟩
  · rw [if_neg hcounts, if_neg hcounts]
    by_cases hwritable : IsWritable (field.value + 1)
    · rw [if_pos hwritable]
      exact .inl ⟨_, rfl, .inr ⟨rfl, hwritable⟩, fun h => ⟨h.2, nofun⟩, fun h => ⟨hwritable, h.1⟩⟩
    · rw [if_neg hwritable]
      exact .inr ⟨rfl, fun h => hwritable h.1⟩

/-- What the fields of numbered members denote. -/
theorem Numbered.isInteger {number : Nat} (h : Numbered context number members fields) :
    ∀ field ∈ fields, IsInteger field.literal.toList field.value := by
  induction h with
  | nil => exact fun field hfield => absurd hfield List.not_mem_nil
  | comment _ _ ih => exact ih
  | own _ _ _ hvalue _ ih => exact List.forall_mem_cons.mpr ⟨hvalue.literal, ih⟩
  | @bare next _ _ _ _ _ ih => exact List.forall_mem_cons.mpr ⟨isInteger_toString next, ih⟩

/-- A field is emitted in front of the others, unless they or the value behind its literal fail. -/
theorem emitted_or_fails (field : NumberedField) (next : NextValue) (code : Code) {codes : List Code}
    {others : NextValue → Emit (List Code)} (hown : next = .unknown → field.isOwn = true)
    (h : IsInteger field.literal.toList field.value)
    (hothers : ∀ following : NextValue, following.IsAt (field.value + 1) →
      (Resumes following fields ∧ others following = return codes) ∨
        (¬ Resumes following fields ∧ Fails (others following))) :
    let step : Emit (List Code) := do
      let following ← NextValue.afterNumeral field.literal
      return code :: (← others following)
    (Resumes next (field :: fields) ∧ step = return code :: codes) ∨
      (¬ Resumes next (field :: fields) ∧ Fails step) := by
  intro step
  rcases afterNumeral_cases h fields with ⟨following, hfollowing, hat, hthrough⟩ | ⟨hfails, hnot⟩
  · have hstep : step = (others following >>= fun rest => pure (code :: rest)) := by
      unfold step
      rw [hfollowing]
      rfl
    rcases hothers following hat with ⟨hresumes, hcodes⟩ | ⟨hresumes, hfails⟩
    · exact .inl ⟨⟨hthrough.mpr hresumes, hown⟩, by rw [hstep, hcodes, pure_bind]⟩
    · exact .inr ⟨fun h => hresumes (hthrough.mp h.1), hstep ▸ hfails.bind _⟩
  · refine .inr ⟨fun h => hnot h.1, .numeralTooLong, ?_⟩
    unfold step
    rw [hfails]
    rfl

/-- The fields of numbered members are emitted if the numbering gets through, and else the step fails. -/
theorem enumFields_of_numbered {number : Nat} (h : Numbered context number members fields)
    {next : NextValue} (hnext : next.IsAt number) :
    (Resumes next fields ∧ enumFields context next (members.map (draft context))
        = return fields.map (NumberedField.code context)) ∨
      (¬ Resumes next fields ∧ Fails (enumFields context next (members.map (draft context)))) := by
  -- by induction on the members, the value in front of them being known or not
  induction h generalizing next with
  | nil => exact .inl ⟨⟨trivial, fun _ => rfl⟩, rfl⟩
  | comment hkind _ ih =>
    rw [enumFields_other next (by rw [hkind]; decide) (by unfold isBare; rw [hkind]; decide)]
    exact ih hnext
  | @own _ value member key initializer members fields hkind hkey hinitializer hvalue _ ih =>
    have hemission : emit context initializer = return Code.ofText (context.text initializer) :=
      emit_leaf (isAssembled_of_kind hvalue.kind (by decide)) hvalue.leaf
    have hafter (code : Code) : nextAfter context initializer code
        = NextValue.afterNumeral (context.text initializer) := by
      unfold nextAfter
      rw [hvalue.kind]
      rfl
    rw [enumFields_assignment next hkind, hkey, hinitializer]
    simp only [demand, pure_bind, hemission, hafter]
    exact emitted_or_fails ⟨key, context.text initializer, value, true⟩ next _ (fun _ => rfl)
      hvalue.literal fun following hat => ih hat
  | @bare number member members fields hbare _ ih =>
    rw [enumFields_bare next hbare]
    rcases hnext with rfl | ⟨rfl, hwritable⟩
    · exact .inr ⟨fun h => Bool.false_ne_true (h.2 rfl), _, rfl⟩
    · have htake : (NextValue.numeral (toString number)).take?
          = (NextValue.afterNumeral (toString number)).map fun following =>
            some (Code.ofText (toString number), following) := by
        unfold NextValue.take?
        dsimp only
        rw [if_pos (isNumeral_toString number)]
        cases NextValue.afterNumeral (toString number) <;> rfl
      have hstep := emitted_or_fails ⟨member, toString number, number, false⟩
        (.numeral (toString number)) (memberField context member (.ofText (toString number)))
        nofun (isInteger_toString number) fun following hat => ih hat
      rw [htake]
      cases hafter : NextValue.afterNumeral (toString number) <;> rwa [hafter] at hstep

/-! ## §3. Numbered enumerations -/

/-- A member that can be numbered, or a comment. -/
inductive IsNumberable (context : Context) (member : Node) : Prop where
  | comment (hkind : member.kind = "comment")
  | bare (hbare : isBare member = true)
  | own {key initializer : Node} {value : Nat} (hkind : member.kind = "enum_assignment")
    (hkey : (member.childByField? "name" <|> member.namedChildren.head?) = some key)
    (hinitializer : initializer? member = some initializer) (hvalue : IsIntegerNode context initializer value)

theorem exists_numbered (h : ∀ member ∈ members, IsNumberable context member) (number : Nat) :
    ∃ fields, Numbered context number members fields := by
  induction members generalizing number with
  | nil => exact ⟨[], .nil⟩
  | cons member members ih =>
    obtain ⟨hmember, hmembers⟩ := List.forall_mem_cons.mp h
    cases hmember with
    | comment hkind =>
      obtain ⟨fields, hfields⟩ := ih hmembers number
      exact ⟨fields, .comment hkind hfields⟩
    | bare hbare =>
      obtain ⟨fields, hfields⟩ := ih hmembers (number + 1)
      exact ⟨_, .bare hbare hfields⟩
    | @own _ _ value hkind hkey hinitializer hvalue =>
      obtain ⟨fields, hfields⟩ := ih hmembers (value + 1)
      exact ⟨_, .own hkind hkey hinitializer hvalue hfields⟩

end Members

variable {context : Context} {node name : Node}

/-- **The numbering of an enumeration** whose members are bare names or have integer literals.  The
value of each bare member is zero or one more than that of the member in front of it, and each
literal of the source is kept, if the numbering gets through; and else the enumeration is not lowered. -/
theorem emit_enum_numbered (hkind : node.kind = "enum_declaration")
    (hname : node.childByField? "name" = some name)
    (hmembers : ∀ member ∈ enumMembers node, IsNumberable context member) :
    ∃ fields, Numbered context 0 (enumMembers node) fields ∧
      (∀ field ∈ fields, IsInteger field.literal.toList field.value) ∧
      (GetsThrough fields → emit context node
        = return Code.ofText ("const " ++ context.text name ++ " = Object.freeze(\x7b ")
          ++ Code.joinWith ", " (fields.map (NumberedField.code context)) ++ Code.ofText " \x7d);") ∧
      (¬ GetsThrough fields → Fails (emit context node)) := by
  obtain ⟨fields, hfields⟩ := exists_numbered hmembers 0
  have hfirst : (NextValue.numeral "0").IsAt 0 :=
    .inr ⟨rfl, (digitCount_toDigits_le_iff (by decide) 0).mp (by decide)⟩
  have hresumes : Resumes (.numeral "0") fields ↔ GetsThrough fields := and_iff_left nofun
  refine ⟨fields, hfields, hfields.isInteger, fun hthrough => ?_, fun hnot => ?_⟩
  · rcases enumFields_of_numbered hfields hfirst with ⟨-, hcodes⟩ | ⟨hstops, -⟩
    · rw [emit_enumDeclaration hkind, hcodes, hname]
      rfl
    · exact absurd (hresumes.mpr hthrough) hstops
  · rcases enumFields_of_numbered hfields hfirst with ⟨hgoes, -⟩ | ⟨-, hfails⟩
    · exact absurd (hresumes.mp hgoes) hnot
    · rw [emit_enumDeclaration hkind]
      exact hfails.bind _

/-- The tree of an enumeration with a member `A`, whose literal has four characters, and a bare one `B`. -/
def literalEnum : Node :=
  ⟨"enum_declaration", true, false, 0, 16, none,
    [⟨"enum", false, false, 0, 4, none, []⟩,
      ⟨"identifier", true, false, 5, 6, some "name", []⟩,
      ⟨"enum_body", true, false, 6, 16, some "body",
        [⟨"\x7b", false, false, 6, 7, none, []⟩,
          ⟨"enum_assignment", true, false, 7, 13, none,
            [⟨"property_identifier", true, false, 7, 8, some "name", []⟩,
              ⟨"=", false, false, 8, 9, none, []⟩,
              ⟨"number", true, false, 9, 13, some "value", []⟩]⟩,
          ⟨",", false, false, 13, 14, none, []⟩,
          ⟨"property_identifier", true, false, 14, 15, some "name", []⟩,
          ⟨"\x7d", false, false, 15, 16, none, []⟩]⟩]⟩

/-- The members of the enumeration can be numbered if the literal of the first one is a hexadecimal one of two
digits. -/
theorem isNumberable_literalEnum {source : String} {c d : Char} {high low : Nat}
    (hliteral : (Node.slice source 9 13).toList = ['0', 'x', c, d]) (hhigh : digitInBase? 16 c = some high)
    (hlow : digitInBase? 16 d = some low) :
    ∀ member ∈ enumMembers literalEnum, IsNumberable ⟨source, {}⟩ member := by
  have hinteger : IsInteger (Node.slice source 9 13).toList (high * 16 + low) := by
    rw [hliteral]
    exact .based (by decide) ((DigitsOf.single hhigh).next hlow)
  refine List.forall_mem_cons.mpr ⟨?_, List.forall_mem_singleton.mpr (.bare rfl)⟩
  exact .own rfl rfl rfl ⟨rfl, rfl, hinteger⟩

/-- In `enum E{A=0x1f,B}` the second member is counted on to 32. -/
theorem emit_enum_numbered_hexadecimal :
    let context : Context := ⟨"enum E\x7bA=0x1f,B\x7d", {}⟩
    ∃ fields, Numbered context 0 (enumMembers literalEnum) fields ∧
      (∀ field ∈ fields, IsInteger field.literal.toList field.value) ∧ GetsThrough fields ∧
      Code.ofText "const E = Object.freeze(\x7b A: 0x1f, B: 32 \x7d);"
        = Code.ofText "const E = Object.freeze(\x7b "
          ++ Code.joinWith ", " (fields.map (NumberedField.code context)) ++ Code.ofText " \x7d);" := by
  intro context
  have hemission : (emit context literalEnum).run {}
      = .ok (Code.ofText "const E = Object.freeze(\x7b A: 0x1f, B: 32 \x7d);", {}) := by
    decide +kernel
  have hmembers : ∀ member ∈ enumMembers literalEnum, IsNumberable context member :=
    isNumberable_literalEnum (c := '1') (d := 'f') (by decide) rfl rfl
  have hkind : literalEnum.kind = "enum_declaration" := rfl
  obtain ⟨fields, hfields, hinteger, hthrough, hstops⟩ := emit_enum_numbered hkind rfl hmembers
  have hgoes : GetsThrough fields := by
    by_contra hnot
    obtain ⟨failure, hfailure⟩ := hstops hnot
    rw [hfailure] at hemission
    cases hemission
  have hopening : "const " ++ context.text ⟨"identifier", true, false, 5, 6, some "name", []⟩
      ++ " = Object.freeze(\x7b " = "const E = Object.freeze(\x7b " := by decide
  rw [hthrough hgoes, hopening] at hemission
  obtain ⟨hcode, -⟩ := Prod.mk.inj (Except.ok.inj hemission)
  exact ⟨fields, hfields, hinteger, hgoes, hcode.symm⟩

/-- **A literal that counting stops behind.**  All members of `enum E{A=0x1e,B}` can be numbered, but the
last digit of the literal is taken for the mark of an exponent, and so the second member has no value. -/
theorem lower_hexadecimal_uncounted :
    let source := "enum E\x7bA=0x1e,B\x7d"
    let program : Node := ⟨"program", true, false, 0, 16, none, [literalEnum]⟩
    (∀ member ∈ enumMembers literalEnum, IsNumberable ⟨source, {}⟩ member) ∧
      lower (fun _ _ => program) .typescript {} source = .error (.rejected ⟨.uninitializedMember, 1⟩) := by
  refine ⟨isNumberable_literalEnum (c := '1') (d := 'e') (by decide) rfl rfl, ?_⟩
  unfold lower
  rw [String.contains_char_eq, if_neg (by decide)]
  decide +kernel

end LivePreview.Lowering
