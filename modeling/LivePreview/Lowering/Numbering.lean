/-
  LivePreview.Lowering.Numbering
  ──────────────────────────────
  **The values of enumeration members without initialiser.**

  The first member is zero, and each further one follows the member before it.  The
  successor of a numeral is a numeral; that of any other value is written as a sum.
-/
import LivePreview.Lowering.Basic
import LivePreview.Number.Shortest

namespace LivePreview.Lowering

open LivePreview.Number (Binary64)

/-- The text can be read as a number. -/
def isNumeral (text : String) : Bool :=
  (Binary64.read? text).isSome

/-- The numeral is written with a point or with a letter of an exponent. -/
def isFractional (text : String) : Bool :=
  text.toList.any fun c => c == '.' || c == 'e' || c == 'E'

/-- The text of a double, without fraction if it is whole. -/
def plainDouble (x : Binary64) : String :=
  match x.toInt? with
  | some n => toString n
  | none => x.text

/-- The text of the number one above a numeral, `none` if the text is no numeral that can be
counted on from. -/
def successor? (text : String) : Except Failure (Option String) :=
  if isFractional text then
    return (Binary64.read? text).map fun x => plainDouble x.succ
  else
    match Number.readLiteral? text with
    | none => return none
    | some n =>
      match Number.decimalText? (n + 1) with
      | some digits => return some digits
      | none => throw .numeralTooLong

/-- The value that a member without initialiser takes. -/
inductive NextValue where
  | numeral (text : String)
  | value (code : Code)
  | unknown
  deriving DecidableEq, Repr

/-- The value behind a value that is no numeral. -/
def sumOf (value : Code) : Code :=
  Code.ofText "(" ++ value ++ Code.ofText ") + 1"

/-- The value behind a numeral in the source. -/
def NextValue.afterNumeral (text : String) : Except Failure NextValue := do
  match ← successor? text with
  | some digits => return .numeral digits
  | none => return .unknown

/-- The value and the value behind it, if the value is known. -/
def NextValue.take? : NextValue → Except Failure (Option (Code × NextValue))
  | .numeral text => do
    let next ← if isNumeral text then afterNumeral text
      else pure (.value (sumOf (Code.ofText text)))
    return some (Code.ofText text, next)
  | .value code => return some (code, .value (sumOf code))
  | .unknown => return none

end LivePreview.Lowering
