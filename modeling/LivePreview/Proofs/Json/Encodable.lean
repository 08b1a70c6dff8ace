/-
  LivePreview.Proofs.Json.Encodable
  ─────────────────────────────────
  **Texts and values that can be expressed in bytes.**

  A text can be expressed in bytes if it holds no half of a surrogate pair.  A string can
  be, and so can what is put together from such texts: by joining them, by replacing one
  in another, or by escaping characters.

  A value can be expressed in bytes exactly if all its parts can, and it is not deeper
  than a limit if its parts are not.  A value that is written in ASCII is a text that can
  be expressed in bytes, whatever the value is (`isEncodable_page`).

  In a literal, a printable character of ASCII other than the quote and the backslash
  stands for itself; every other code point becomes an escape (`escapePoint_cases`), which
  is a backslash and then letters, digits, quotes and backslashes.  So a character that is
  neither printable nor one of these is in no literal (`not_mem_literal`).
-/
import LivePreview.Json.Encodable
import LivePreview.Json.Writer
import LivePreview.Proofs.Table
import LivePreview.Proofs.Text.Occurrence
import LivePreview.Text.Markup

namespace LivePreview.Text

/-! ## §1. Strings -/

theorem isEncodable_iff {text : Text} :
    text.isEncodable = true ↔ ∀ offset, CodePoint.half offset ∉ text.points := by
  unfold isEncodable
  rw [List.all_eq_true]
  constructor
  · intro h offset hmem
    cases h _ hmem
  · intro h point hmem
    cases point with
    | char c => rfl
    | half offset => exact absurd hmem (h offset)

@[simp] theorem isEncodable_ofString (s : String) : (ofString s).isEncodable = true := by
  rw [isEncodable_iff]
  intro offset hmem
  obtain ⟨c, -, hc⟩ := List.mem_map.mp hmem
  cases hc

theorem string?_ofString (s : String) : (s : Text).string? = some s := by
  have hchars : ∀ cs : List Char, (cs.map CodePoint.char).mapM CodePoint.char? = some cs := by
    intro cs
    induction cs with
    | nil => rfl
    | cons c cs ih =>
      rw [List.map_cons, List.mapM_cons, ih]
      rfl
  show ((s.toList.map CodePoint.char).mapM CodePoint.char?).map String.ofList = some s
  rw [hchars, Option.map_some, String.ofList_toList]

/-- The string that a text is is that text. -/
theorem string?_eq_some_iff {text : Text} {s : String} : text.string? = some s ↔ text = s := by
  constructor
  · intro h
    obtain ⟨cs, hcs, rfl⟩ := Option.map_eq_some_iff.mp h
    unfold chars? at hcs
    clear h
    refine Text.ext ?_
    show text.points = (String.ofList cs).toList.map CodePoint.char
    rw [String.toList_ofList]
    generalize text.points = points at hcs ⊢
    induction points generalizing cs with
    | nil =>
      cases hcs
      rfl
    | cons point points ih =>
      rw [List.mapM_cons] at hcs
      obtain ⟨c, hc, hrest⟩ := Option.bind_eq_some_iff.mp hcs
      obtain ⟨later, hlater, hvalue⟩ := Option.bind_eq_some_iff.mp hrest
      cases point with
      | half offset => cases hc
      | char d =>
        cases hc
        cases hvalue
        rw [List.map_cons, ih later hlater]
  · rintro rfl
    exact string?_ofString s

theorem isEncodable_of_string? {text : Text} {s : String} (h : text.string? = some s) :
    text.isEncodable = true := by
  rw [string?_eq_some_iff.mp h]
  exact isEncodable_ofString s

/-- Part of a text that can be expressed in bytes can be, too. -/
theorem isEncodable_of_subset {text : Text} {points : List CodePoint} (h : text.isEncodable = true)
    (hsub : points ⊆ text.points) : (⟨points⟩ : Text).isEncodable = true := by
  rw [isEncodable_iff] at h ⊢
  exact fun offset hmem => h offset (hsub hmem)

/-! ## §2. Putting texts together -/

theorem isEncodable_append_iff {a b : Text} :
    (a ++ b).isEncodable = true ↔ a.isEncodable = true ∧ b.isEncodable = true := by
  unfold isEncodable
  rw [← Bool.and_eq_true_iff, ← List.all_append]
  rfl

theorem isEncodable_append {a b : Text} (ha : a.isEncodable = true) (hb : b.isEncodable = true) :
    (a ++ b).isEncodable = true :=
  isEncodable_append_iff.mpr ⟨ha, hb⟩

theorem isEncodable_intercalate {separator : Text} {texts : List Text}
    (hseparator : separator.isEncodable = true) (h : ∀ text ∈ texts, text.isEncodable = true) :
    (intercalate separator texts).isEncodable = true := by
  rw [isEncodable_iff] at hseparator ⊢
  intro offset
  refine not_mem_intercalate (hseparator offset) fun piece hpiece => ?_
  obtain ⟨text, htext, rfl⟩ := List.mem_map.mp hpiece
  exact isEncodable_iff.mp (h text htext) offset

theorem isEncodable_unlines {ls : List Text} (h : ∀ line ∈ ls, line.isEncodable = true) :
    (unlines ls).isEncodable = true :=
  isEncodable_intercalate (isEncodable_ofString _) h

/-- The pieces of a text hold nothing but what is in the text. -/
theorem not_mem_of_mem_betweenFrom {pattern : List CodePoint} {point : CodePoint} {skip : Nat}
    {points piece : List CodePoint} (hpoint : point ∉ points)
    (hpiece : piece ∈ betweenFrom pattern skip points) : point ∉ piece := by
  induction points generalizing skip piece with
  | nil =>
    obtain rfl := List.mem_singleton.mp hpiece
    exact List.not_mem_nil
  | cons first points ih =>
    rw [List.mem_cons, not_or] at hpoint
    cases skip with
    | succ skip => exact ih hpoint.2 hpiece
    | zero =>
      unfold betweenFrom at hpiece
      split at hpiece
      · rcases List.mem_cons.mp hpiece with rfl | hpiece
        · exact List.not_mem_nil
        · exact ih hpoint.2 hpiece
      · -- any other code point joins the piece behind it
        have hlater : ∀ piece ∈ betweenFrom pattern 0 points, point ∉ piece := fun piece => ih hpoint.2
        obtain ⟨next, rest, hbetween⟩ :=
          List.exists_cons_of_ne_nil (betweenFrom_ne_nil pattern 0 points)
        rw [hbetween] at hpiece hlater
        rw [List.forall_mem_cons] at hlater
        rcases List.mem_cons.mp hpiece with rfl | hpiece
        · rw [List.mem_cons, not_or]
          exact ⟨hpoint.1, hlater.1⟩
        · exact hlater.2 piece hpiece

theorem isEncodable_replaceAll {new text : Text} (hnew : new.isEncodable = true)
    (h : text.isEncodable = true) (pattern : Text) : (replaceAll pattern new text).isEncodable = true := by
  rw [isEncodable_iff] at hnew h ⊢
  intro offset
  exact not_mem_intercalate (hnew offset) fun piece => not_mem_of_mem_betweenFrom (h offset)

theorem isEncodable_escape {text : Text} (h : text.isEncodable = true) :
    (Markup.escape text).isEncodable = true := by
  rw [isEncodable_iff] at h ⊢
  intro offset hmem
  obtain ⟨point, hpoint, hescaped⟩ := List.mem_flatMap.mp hmem
  cases point with
  | char c =>
    obtain ⟨d, -, hd⟩ := List.mem_map.mp hescaped
    cases hd
  | half other =>
    have heq : CodePoint.half offset = .half other := List.mem_singleton.mp hescaped
    exact h offset (heq ▸ hpoint)

end LivePreview.Text

namespace LivePreview.Json

open LivePreview.Text (isEncodable_append isEncodable_intercalate isEncodable_ofString)

/-! ## §3. Parts -/

theorem areEncodableItems_iff {items : List Json} :
    areEncodableItems items = true ↔ ∀ item ∈ items, item.isEncodable = true := by
  induction items with
  | nil => simp [areEncodableItems]
  | cons item items ih => rw [areEncodableItems, Bool.and_eq_true, ih, List.forall_mem_cons]

theorem areEncodableFields_iff {fields : Fields} :
    areEncodableFields fields = true
      ↔ ∀ field ∈ fields, field.1.isEncodable = true ∧ field.2.isEncodable = true := by
  induction fields with
  | nil => simp [areEncodableFields]
  | cons field fields ih =>
    rw [areEncodableFields, Bool.and_eq_true, Bool.and_eq_true, ih, List.forall_mem_cons]

/-- What stands under a name can be expressed in bytes if the object can. -/
theorem isEncodable_of_get? {fields : Fields} {name : Text} {value : Json}
    (h : areEncodableFields fields = true) (hget : Table.get? fields name = some value) :
    value.isEncodable = true := by
  obtain ⟨field, hfield, rfl⟩ := List.mem_map.mp (Table.mem_values_of_get? hget)
  exact (areEncodableFields_iff.mp h field hfield).2

theorem isEncodable_of_field? {value field : Json} {name : Text} (h : value.isEncodable = true)
    (hfield : value.field? name = some field) : field.isEncodable = true := by
  cases value with
  | object fields => exact isEncodable_of_get? h hfield
  | _ => cases hfield

/-- The fields of an object lie at most one level beneath it. -/
theorem depth_object_le {fields : Fields} {limit : Nat} (h : ∀ field ∈ fields, field.2.depth ≤ limit) :
    (object fields).depth ≤ limit + 1 := by
  have hfields : depthOfFields fields ≤ limit := by
    induction fields with
    | nil => exact Nat.zero_le limit
    | cons field fields ih =>
      rw [List.forall_mem_cons] at h
      rw [depthOfFields]
      exact Nat.max_le.mpr ⟨h.1, ih h.2⟩
  rw [depth]
  exact Nat.add_le_add_right hfields 1

theorem depth_array_le {items : List Json} {limit : Nat} (h : ∀ item ∈ items, item.depth ≤ limit) :
    (array items).depth ≤ limit + 1 := by
  have hitems : depthOfItems items ≤ limit := by
    induction items with
    | nil => exact Nat.zero_le limit
    | cons item items ih =>
      rw [List.forall_mem_cons] at h
      rw [depthOfItems]
      exact Nat.max_le.mpr ⟨h.1, ih h.2⟩
  rw [depth]
  exact Nat.add_le_add_right hitems 1

/-! ## §4. Values in ASCII -/

theorem isEncodable_margin (level : Nat) : (margin level).isEncodable = true :=
  isEncodable_append (isEncodable_ofString _) (isEncodable_ofString _)

theorem isEncodable_block {opening closing : Text} {parts : List Text} (level : Nat)
    (hopening : opening.isEncodable = true) (hclosing : closing.isEncodable = true)
    (hparts : ∀ part ∈ parts, part.isEncodable = true) :
    (block level opening closing parts).isEncodable = true := by
  have hseparator := isEncodable_append (isEncodable_ofString ",") (isEncodable_margin (level + 1))
  unfold block
  split
  · exact isEncodable_append hopening hclosing
  · refine isEncodable_append (isEncodable_append (isEncodable_append (isEncodable_append hopening
      (isEncodable_margin _)) ?_) (isEncodable_margin _)) hclosing
    exact isEncodable_intercalate hseparator hparts

mutual

/-- **What is written of a value in ASCII can be expressed in bytes.** -/
theorem isEncodable_page (level : Nat) : (value : Json) → (value.page level).isEncodable = true
  | .null | .int _ | .double _ | .text _ => isEncodable_ofString _
  | .bool b => by cases b <;> exact isEncodable_ofString _
  | .array items =>
    isEncodable_block level (isEncodable_ofString _) (isEncodable_ofString _)
      (isEncodable_pageItems (level + 1) items)
  | .object fields =>
    isEncodable_block level (isEncodable_ofString _) (isEncodable_ofString _)
      (isEncodable_pageFields (level + 1) fields)

theorem isEncodable_pageItems (level : Nat) :
    (items : List Json) → ∀ part ∈ pageItems level items, part.isEncodable = true
  | [] => nofun
  | item :: items =>
    List.forall_mem_cons.mpr ⟨isEncodable_page level item, isEncodable_pageItems level items⟩

theorem isEncodable_pageFields (level : Nat) :
    (fields : Fields) → ∀ part ∈ pageFields level fields, part.isEncodable = true
  | [] => nofun
  | (_, value) :: fields =>
    List.forall_mem_cons.mpr
      ⟨isEncodable_append (isEncodable_append (isEncodable_ofString _) (isEncodable_ofString _))
          (isEncodable_page level value),
        isEncodable_pageFields level fields⟩

end

/-! ## §5. Digits -/

/-- The digits of a number are letters and digits. -/
theorem isAlphanum_of_mem_toDigits {base : Nat} (hbase : 1 < base) (hlimit : base ≤ 16) (n : Nat)
    {c : Char} (h : c ∈ Nat.toDigits base n) : c.isAlphanum = true := by
  have hdigit : ∀ d < base, d.digitChar.isAlphanum = true := by
    have hall : ∀ d < 16, (Nat.digitChar d).isAlphanum = true := by decide
    exact fun d hd => hall d (by omega)
  induction n using Nat.strongRecOn with
  | _ n ih =>
    by_cases hlt : n < base
    · rw [Nat.toDigits_of_lt_base hlt, List.mem_singleton] at h
      exact h ▸ hdigit n hlt
    · have hsmaller : n / base < n := Nat.div_lt_self (by omega) hbase
      rw [Nat.toDigits_of_base_le hbase (by omega), List.mem_append, List.mem_singleton] at h
      rcases h with h | rfl
      · exact ih _ hsmaller h
      · exact hdigit _ (Nat.mod_lt n (by omega))

/-! ## §6. Escapes -/

/-- The code is that of a character that stands for itself. -/
def IsKept (code : Nat) : Prop :=
  0x20 ≤ code ∧ code ≤ 0x7E ∧ code ≠ 0x22 ∧ code ≠ 0x5C

/-- The character may stand in an escape. -/
def inEscape (c : Char) : Bool :=
  c.isAlphanum || c == '\\' || c == '"'

theorem inEscape_of_mem_unitEscape {unit : Nat} {c : Char} (h : c ∈ unitEscape unit) :
    inEscape c = true := by
  unfold unitEscape Text.hex at h
  simp only [List.mem_cons, List.mem_append, List.mem_replicate] at h
  rcases h with rfl | rfl | ⟨-, rfl⟩ | h
  · decide
  · decide
  · decide
  · simp [inEscape, isAlphanum_of_mem_toDigits (by omega) (by omega) unit h]

/-- A code point stands for itself, or an escape stands for it. -/
theorem escapePoint_cases (point : CodePoint) :
    (∃ c, point = .char c ∧ escapePoint point = [c] ∧ IsKept c.toNat)
      ∨ ¬ IsKept point.toNat
        ∧ ∃ tail, escapePoint point = '\\' :: tail ∧ ∀ c ∈ tail, inEscape c = true := by
  have hunit : ∀ unit, ∀ c ∈ 'u' :: Text.hex 4 unit, inEscape c = true := fun unit c hc =>
    inEscape_of_mem_unitEscape (List.mem_cons_of_mem _ hc)
  cases point with
  | half offset =>
    refine .inr ⟨?_, _, rfl, hunit _⟩
    simp only [IsKept, CodePoint.toNat, CodePoint.firstHalf]
    omega
  | char c =>
    by_cases hshort : c ∈ ['"', '\\', '\n', '\r', '\t', '\x08', '\x0c']
    · -- these have escapes of two characters
      have hall : ['"', '\\', '\n', '\r', '\t', '\x08', '\x0c'].all fun c =>
          escapeChar .ascii c = '\\' :: (escapeChar .ascii c).drop 1
            ∧ ((escapeChar .ascii c).drop 1).all inEscape = true
            ∧ ¬ (0x20 ≤ c.toNat ∧ c.toNat ≤ 0x7E ∧ c.toNat ≠ 0x22 ∧ c.toNat ≠ 0x5C) := by
        decide
      obtain ⟨hwritten, htail, hkept⟩ := of_decide_eq_true (List.all_eq_true.mp hall c hshort)
      exact .inr ⟨hkept, _, hwritten, List.all_eq_true.mp htail⟩
    · simp only [List.mem_cons, List.not_mem_nil, or_false, not_or] at hshort
      have hcode : ∀ d : Char, c ≠ d → c.toNat ≠ d.toNat := fun d hne => mt Char.toNat_inj.mp hne
      have hother : escapeChar .ascii c = if c.toNat < 0x20 then unitEscape c.toNat
          else if 0x7E < c.toNat then (units c).flatMap unitEscape else [c] := by
        simp [escapeChar, hshort]
      show (∃ d, CodePoint.char c = .char d ∧ escapeChar .ascii c = [d] ∧ _)
        ∨ ¬ IsKept c.toNat ∧ ∃ tail, escapeChar .ascii c = _ ∧ _
      rw [hother]
      split
      · next hcontrol => exact .inr ⟨fun hkept => absurd hkept.1 (by omega), _, rfl, hunit _⟩
      split
      · next hbeyond =>
        refine .inr ⟨fun hkept => absurd hkept.2.1 (by omega), ?_⟩
        -- one unit, or those of a surrogate pair
        unfold units
        split
        · rw [List.flatMap_singleton]
          exact ⟨_, rfl, hunit _⟩
        · rw [List.flatMap_cons, List.flatMap_singleton]
          refine ⟨_, rfl, fun d hd => ?_⟩
          rcases List.mem_append.mp hd with hd | hd
          · exact hunit _ d hd
          · exact inEscape_of_mem_unitEscape hd
      · next hcontrol hbeyond =>
        refine .inl ⟨c, rfl, rfl, by omega, by omega, hcode '"' hshort.1, hcode '\\' hshort.2.1⟩

/-- A literal holds the printable characters of its text, and those of escapes. -/
theorem not_mem_literal {c : Char} (hescape : inEscape c = false) (hkept : ¬ IsKept c.toNat)
    (text : Text) : c ∉ (literal text).toList := by
  have hpoint : ∀ point, c ∉ escapePoint point := by
    intro point hmem
    rcases escapePoint_cases point with ⟨d, -, hself, hd⟩ | ⟨-, tail, hwritten, htail⟩
    · rw [hself, List.mem_singleton] at hmem
      exact hkept (hmem ▸ hd)
    · rw [hwritten, List.mem_cons] at hmem
      rcases hmem with rfl | hmem
      · exact absurd hescape (by decide)
      · rw [htail c hmem] at hescape
        cases hescape
  have hquote : c ≠ '"' := by
    rintro rfl
    exact absurd hescape (by decide)
  unfold literal
  rw [String.toList_ofList]
  simp [hpoint, hquote]

end LivePreview.Json
