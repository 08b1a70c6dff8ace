/-
  LivePreview.Proofs.Lowering.Filling
  ───────────────────────────────────
  **Placeholders are found whatever stands between them.**

  Marked text is a sequence of parts, chunks without NULs and placeholders.  A chunk
  may consist of digits, so that it looks like a number between the second NUL of the
  placeholder in front and the first NUL of the one behind:

      written   ␀ 0 ␀ 1 2 ␀ 0 ␀         filled   " a " 1 2 " a "
                └─────┘     └─────┘      sites    [─────)   [─────)

  The scan stays in step with the parts, every placeholder becomes the literal of
  its specifier, and its site starts behind all that was filled in (`fill_written`).
-/
import LivePreview.Proofs.Lowering.Code

namespace LivePreview.Lowering

/-! ## §1. Parts -/

/-- A part of marked text that has placeholders for `count` specifiers. -/
inductive Code.Part (count : Nat) where
  | chunk (text : String) (nulFree : NulFree text)
  /-- The place of the specifier with the given number. -/
  | placeholder (number : Fin count)

namespace Code.Part

/-- The part in marked text. -/
def written {count : Nat} : Code.Part count → List Char
  | .chunk text _ => text.toList
  | .placeholder number => '\x00' :: Nat.toDigits 10 number ++ ['\x00']

/-- The part as emitted code. -/
def pieces {count : Nat} : Code.Part count → Code
  | .chunk text _ => Code.ofText text
  | .placeholder number => [.site number]

/-- The part with the literal of its specifier in place of a placeholder. -/
def filled (specifiers : List Text) : Code.Part specifiers.length → List Char
  | .chunk text _ => text.toList
  | .placeholder number => (Json.literal specifiers[number]).toList

/-- The sites of the placeholders among the parts, when `position` characters of filled text
stand in front. -/
def sitesFrom (specifiers : List Text) (position : Nat) :
    List (Code.Part specifiers.length) → List Site
  | [] => []
  | .chunk text nulFree :: parts =>
    sitesFrom specifiers (position + (filled specifiers (.chunk text nulFree)).length) parts
  | .placeholder number :: parts =>
    let stop := position + (filled specifiers (.placeholder number)).length
    ⟨position, stop, specifiers[number]⟩ :: sitesFrom specifiers stop parts

variable {count : Nat}

theorem marked_pieces (part : Code.Part count) : Code.marked part.pieces = part.written := by
  cases part with
  | chunk text nulFree =>
    unfold pieces Code.marked Code.ofText written
    rw [List.flatMap_map]
    exact List.flatMap_singleton' _
  | placeholder number => exact List.flatMap_singleton _ _

/-- A chunk holds no NULs and a placeholder has its specifier. -/
theorem isClean_pieces (part : Code.Part count) : part.pieces.IsClean count := by
  cases part with
  | chunk text nulFree =>
    intro piece hpiece
    obtain ⟨c, hc, rfl⟩ := List.mem_map.mp hpiece
    rintro rfl
    exact nulFree hc
  | placeholder number =>
    intro piece hpiece
    obtain rfl := List.mem_singleton.mp hpiece
    exact number.isLt

theorem marked_flatMap_pieces (parts : List (Code.Part count)) :
    Code.marked (parts.flatMap pieces) = parts.flatMap written := by
  unfold Code.marked
  rw [List.flatMap_assoc]
  exact congrArg (parts.flatMap ·) (funext marked_pieces)

theorem isClean_flatMap_pieces (parts : List (Code.Part count)) :
    Code.IsClean count (parts.flatMap pieces) := by
  intro piece hpiece
  obtain ⟨part, -, hmem⟩ := List.mem_flatMap.mp hpiece
  exact part.isClean_pieces piece hmem

end Code.Part

/-! ## §2. Filling in -/

/-- Characters are filled in as they are, and what follows stands behind them. -/
theorem Code.fillFrom_chars {specifiers : List Text} {position : Nat} {marks : List Code.Mark}
    {cs : List Char} {sites : List Site} (xs : List Char)
    (hrest : Code.fillFrom specifiers (position + xs.length) marks = .ok (cs, sites)) :
    Code.fillFrom specifiers position (xs.map .char ++ marks) = .ok (xs ++ cs, sites) := by
  induction xs generalizing position with
  | nil => exact hrest
  | cons x xs ih =>
    have hnext : position + (x :: xs).length = position + 1 + xs.length := by
      rw [List.length_cons]
      omega
    rw [hnext] at hrest
    rw [List.map_cons, List.cons_append, Code.fillFrom, ih hrest]
    rfl

/-- A placeholder is filled in with the literal of its specifier. -/
theorem Code.fillFrom_site {specifiers : List Text} {position number : Nat}
    {marks : List Code.Mark} {cs : List Char} {sites : List Site} (hnumber : number < specifiers.length)
    (hrest : Code.fillFrom specifiers
      (position + (Json.literal specifiers[number]).toList.length) marks = .ok (cs, sites)) :
    Code.fillFrom specifiers position (.site number :: marks)
      = .ok ((Json.literal specifiers[number]).toList ++ cs,
          ⟨position, position + (Json.literal specifiers[number]).toList.length, specifiers[number]⟩
            :: sites) := by
  rw [Code.fillFrom, List.getElem?_eq_getElem hnumber]
  dsimp only
  rw [hrest]
  rfl

/-- Every part is filled in at the place that those in front of it leave. -/
theorem fillFrom_parts (specifiers : List Text) (position : Nat)
    (parts : List (Code.Part specifiers.length)) :
    Code.fillFrom specifiers position ((parts.flatMap Code.Part.pieces).map Piece.mark)
      = .ok (parts.flatMap (Code.Part.filled specifiers),
          Code.Part.sitesFrom specifiers position parts) := by
  induction parts generalizing position with
  | nil => rfl
  | cons part parts ih =>
    rw [List.flatMap_cons, List.map_append, List.flatMap_cons]
    cases part with
    | chunk text nulFree =>
      have hmarks : (Code.Part.chunk text nulFree : Code.Part specifiers.length).pieces.map Piece.mark
          = text.toList.map .char := by
        rw [Code.Part.pieces, Code.ofText, List.map_map]
        rfl
      rw [hmarks]
      exact Code.fillFrom_chars text.toList (ih _)
    | placeholder number => exact Code.fillFrom_site number.isLt (ih _)

/-- Of any sequence of chunks and placeholders the chunks are left as they are, every placeholder
becomes the literal of its specifier, and the sites are those of the placeholders. -/
theorem fill_written (specifiers : List Text) (parts : List (Code.Part specifiers.length)) :
    Code.fill specifiers
        (Code.scan (Code.digitLimit specifiers) (parts.flatMap Code.Part.written))
      = .ok (String.ofList (parts.flatMap (Code.Part.filled specifiers)),
          Code.Part.sitesFrom specifiers 0 parts) := by
  have hmarks : Code.scan (Code.digitLimit specifiers) (parts.flatMap Code.Part.written)
      = (parts.flatMap Code.Part.pieces).map Piece.mark := by
    rw [← Code.Part.marked_flatMap_pieces]
    exact Code.scan_marked (Code.Part.isClean_flatMap_pieces parts)
      fun _ h => Code.length_toDigits_le_digitLimit h
  rw [hmarks, Code.fill, fillFrom_parts]
  rfl

/-- The digits between two placeholders of one specifier are no third one. -/
example :
    Code.fill [Text.ofString "a"] (Code.scan 4300 "\x000\x0012\x000\x00".toList)
      = .ok ("\"a\"12\"a\"", [⟨0, 3, Text.ofString "a"⟩, ⟨5, 8, Text.ofString "a"⟩]) := by
  decide +kernel

end LivePreview.Lowering
