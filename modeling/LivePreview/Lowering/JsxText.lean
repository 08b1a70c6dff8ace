/-
  LivePreview.Lowering.JsxText
  ────────────────────────────
  **White space in the text between elements.**

  A text that spans several lines is joined to one: tabs become spaces, the spaces
  at the line ends that the text breaks at are dropped, empty lines vanish, and a
  space follows every line that is left, the last one with more than spaces in it
  apart.
-/
import LivePreview.Text.Blank
import LivePreview.Text.CharacterReference
import LivePreview.Text.Occurrence

namespace LivePreview.Lowering.JsxText

open LivePreview.Text (consPiece dropEndWhile)
open LivePreview.Text.CharacterReference (Overlong unescape)

/-- The lines of a text, which end at a carriage return, a line feed, or both in this order. -/
def splitLines : List Char → List (List Char)
  | [] => [[]]
  | '\r' :: '\n' :: cs => [] :: splitLines cs
  | c :: cs =>
    if c == '\n' || c == '\r' then [] :: splitLines cs else consPiece c (splitLines cs)

/-- A line holds more than spaces and tabs. -/
def isFilled (line : List Char) : Bool :=
  line.any fun c => c != ' ' && c != '\t'

/-- The number of lines in front of the last filled one, if there is one. -/
def lastFilled? (lines : List (List Char)) : Option Nat :=
  ((lines.zipIdx.filter fun (line, _) => isFilled line).getLast?).map Prod.snd

/-- The line with spaces for tabs. -/
def untab (line : List Char) : List Char :=
  line.map fun c => if c == '\t' then ' ' else c

/-- A line without the spaces at its broken ends: every line but the first is broken at its
start, every line but the last at its end. -/
def trimBroken (isFirst isLast : Bool) (line : List Char) : List Char :=
  let fromStart := if isFirst then line else line.dropWhile (· == ' ')
  if isLast then fromStart else dropEndWhile (· == ' ') fromStart

/-- What is left of the line with a number. -/
def joinedLine (count : Nat) (filled? : Option Nat) (line : List Char) (number : Nat) :
    List Char :=
  let rest := trimBroken (number == 0) (number + 1 == count) (untab line)
  if rest.isEmpty then []
  else if filled? == some number then rest
  else rest ++ [' ']

/-- Join the lines of a text. -/
def clean (text : String) : String :=
  let lines := splitLines text.toList
  let count := lines.length
  let filled? := lastFilled? lines
  String.ofList (lines.zipIdx.flatMap fun (line, number) =>
    joinedLine count filled? line number)

/-- The text of a run between elements, its character references decoded. -/
def ofRun (run : String) : Except Overlong String :=
  (unescape run).map clean

end LivePreview.Lowering.JsxText
