/-
  LivePreview.Text.Occurrence
  ───────────────────────────
  **Leftmost, non-overlapping occurrences of a pattern.**

  `between` cuts a list at the occurrences of a non-empty pattern; counting them
  and replacing them in a text are read off the cut, so that the two always speak of
  the same occurrences.
-/
import LivePreview.Text.Basic

namespace LivePreview.Text

variable {α : Type}

/-- Put a member in front of the first piece. -/
def consPiece (x : α) : List (List α) → List (List α)
  | [] => [[x]]
  | piece :: pieces => (x :: piece) :: pieces

/-- The pieces of a list between the occurrences of `pattern`, read from the left; the first
`skip` members still belong to the occurrence found last. -/
def betweenFrom [BEq α] (pattern : List α) : Nat → List α → List (List α)
  | _, [] => [[]]
  | skip + 1, _ :: xs => betweenFrom pattern skip xs
  | 0, x :: xs =>
    if pattern.isPrefixOf (x :: xs) then [] :: betweenFrom pattern (pattern.length - 1) xs
    else consPiece x (betweenFrom pattern 0 xs)

/-- The pieces of a list between the occurrences of a non-empty pattern. -/
def between [BEq α] (pattern xs : List α) : List (List α) :=
  betweenFrom pattern 0 xs

/-- The number of occurrences of a non-empty pattern. -/
def occurrences (pattern text : Text) : Nat :=
  (between pattern.points text.points).length - 1

/-- The text with `new` in place of every occurrence of a non-empty pattern. -/
def replaceAll (pattern new text : Text) : Text :=
  ⟨new.points.intercalate (between pattern.points text.points)⟩

/-- The lines of a text, which end at a line feed only. -/
def lines (text : Text) : List Text :=
  (text.points.splitOn (.char '\n')).map Text.mk

/-- The text whose lines are given. -/
def unlines (ls : List Text) : Text :=
  intercalate "\n" ls

end LivePreview.Text
