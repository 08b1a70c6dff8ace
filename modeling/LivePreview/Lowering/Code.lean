/-
  LivePreview.Lowering.Code
  ─────────────────────────
  **Emitted code and the placeholders in it.**

  While a module is emitted, an import specifier is a placeholder that holds its
  number (`Piece.site`).  Finished code is text: a placeholder becomes its number
  between two NUL characters (`marked`).  The text is then read back from left to
  right (`scan`), and the literal of each specifier is put in place of its number
  (`fill`), which also yields the place of every literal in the final code.  Code may
  hold NUL characters of its own, so the text that is read back may hold numbers
  that belong to no specifier.
-/
import LivePreview.Json.Writer
import LivePreview.Number.Numeral
import LivePreview.Text.Basic

namespace LivePreview.Lowering

open LivePreview.Number (decimalDigit? maxDigits ofDigits)

/-! ## §1. Pieces -/

/-- A piece of emitted code. -/
inductive Piece where
  | char (c : Char)
  /-- The place of the specifier with the given number. -/
  | site (number : Nat)
  deriving DecidableEq, Repr, Inhabited

/-- Emitted code. -/
abbrev Code := List Piece

namespace Code

/-- Code without placeholders. -/
def ofText (text : String) : Code :=
  text.toList.map .char

/-- Codes with a separator between them. -/
def joinWith (separator : String) : List Code → Code
  | [] => []
  | [code] => code
  | code :: codes => code ++ ofText separator ++ joinWith separator codes

/-! ## §2. Marked text -/

/-- A piece in marked text. -/
def markPiece : Piece → List Char
  | .char c => [c]
  | .site number => '\x00' :: Nat.toDigits 10 number ++ ['\x00']

/-- The text of the code, with the number of each specifier between two NUL characters. -/
def marked (code : Code) : List Char :=
  code.flatMap markPiece

/-- What stands at a place of marked text. -/
inductive Mark where
  | char (c : Char)
  /-- The place of the specifier with the given number. -/
  | site (number : Nat)
  /-- A number with too many digits to be read. -/
  | overlong (digits : Nat)
  deriving DecidableEq, Repr, Inhabited

/-- The mark that digits between two NUL characters make, if at most `limit` digits can be read. -/
def markOf (limit : Nat) (digits : List Char) : Mark :=
  if digits.length ≤ limit then .site (ofDigits 10 (digits.filterMap decimalDigit?))
  else .overlong digits.length

/-- The mark between two NUL characters at the front of a text, and how many characters the
digits and the second NUL take. -/
def placeholder? (limit : Nat) : List Char → Option (Mark × Nat)
  | '\x00' :: cs =>
    let digits := cs.takeWhile fun c => (decimalDigit? c).isSome
    if !digits.isEmpty && (cs.drop digits.length).head? == some '\x00' then
      some (markOf limit digits, digits.length + 1)
    else none
  | _ => none

/-- Read marked text from the left; the first `skip` characters belong to the placeholder read
last. -/
def scanFrom (limit : Nat) : Nat → List Char → List Mark
  | _, [] => []
  | skip + 1, _ :: cs => scanFrom limit skip cs
  | 0, c :: cs =>
    match placeholder? limit (c :: cs) with
    | some (mark, length) => mark :: scanFrom limit length cs
    | none => .char c :: scanFrom limit 0 cs

/-- Read marked text, whose numbers have at most `limit` digits. -/
def scan (limit : Nat) (cs : List Char) : List Mark :=
  scanFrom limit 0 cs

end Code

/-! ## §3. Sites -/

/-- The place of a specifier literal in finished code, in characters, its quotes included. -/
structure Site where
  start : Nat
  stop : Nat
  specifier : Text
  deriving DecidableEq, Repr

/-- Why marked text cannot be filled in. -/
inductive FillFault where
  /-- A number belongs to no specifier. -/
  | noSpecifier (number : Nat)
  | overlong (digits : Nat)
  deriving DecidableEq, Repr

namespace Code

/-- The characters of the text with the literal of each specifier in its place, and the sites of
the literals when `position` characters stand in front. -/
def fillFrom (specifiers : List Text) (position : Nat) :
    List Mark → Except FillFault (List Char × List Site)
  | [] => .ok ([], [])
  | .char c :: marks => do
    let (cs, sites) ← fillFrom specifiers (position + 1) marks
    return (c :: cs, sites)
  | .overlong digits :: _ => .error (.overlong digits)
  | .site number :: marks =>
    match specifiers[number]? with
    | none => .error (.noSpecifier number)
    | some specifier => do
      let literal := (Json.literal specifier).toList
      let stop := position + literal.length
      let (cs, sites) ← fillFrom specifiers stop marks
      return (literal ++ cs, ⟨position, stop, specifier⟩ :: sites)

/-- The text with the literal of each specifier in its place, and the sites of the literals. -/
def fill (specifiers : List Text) (marks : List Mark) :
    Except FillFault (String × List Site) := do
  let (cs, sites) ← fillFrom specifiers 0 marks
  return (String.ofList cs, sites)

/-- How many digits a number in marked text may have.  The numbers of the specifiers never have
more. -/
def digitLimit (specifiers : List Text) : Nat :=
  max maxDigits (Nat.toDigits 10 specifiers.length).length

/-- Write the code as marked text and put the literals in. -/
def finish (specifiers : List Text) (code : Code) : Except FillFault (String × List Site) :=
  fill specifiers (scan (digitLimit specifiers) (marked code))

end Code

end LivePreview.Lowering
