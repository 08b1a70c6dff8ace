/-
  LivePreview.Number.Shortest
  ───────────────────────────
  **The shortest decimal text of a double.**

  A double stands for the interval of numbers that round to it; the ends belong to
  the interval exactly if the mantissa is even.  `shortest` looks for the decimal
  with the fewest digits in that interval, and among those for the one nearest to
  the double; on a tie the even one is taken.  For one, two, … digits it tests the
  two neighbours of the double on the grid of that many digits, so the first grid
  with a hit has the fewest digits.

  `text` lays the digits out: with a point while the first digit stands from the
  fourth place behind the point to the sixteenth in front of it, and otherwise with
  an exponent of at least two digits and a sign.
-/
import LivePreview.Number.Binary64

namespace LivePreview.Number.Binary64

/-- Compare `a · 10 ^ i` with `n · 2 ^ j`. -/
def compareScaled (a : Nat) (i : Int) (n : Nat) (j : Int) : Ordering :=
  compare (a * Nat.pow 10 i.toNat * Nat.pow 2 (-j).toNat)
    (n * Nat.pow 2 j.toNat * Nat.pow 10 (-i).toNat)

/-- The decimal `digits · 10 ^ i` rounds to the double `m · 2 ^ e`. -/
def roundsTo (m : Nat) (e : Int) (digits : Nat) (i : Int) : Bool :=
  let narrow := m == Nat.pow 2 52 && -1074 < e
  let low := if narrow then 4 * m - 1 else 4 * m - 2
  let atLow := compareScaled digits i low (e - 2)
  let atHigh := compareScaled digits i (4 * m + 2) (e - 2)
  (atLow == .gt || (m % 2 == 0 && atLow == .eq))
    && (atHigh == .lt || (m % 2 == 0 && atHigh == .eq))

/-- The least `k` with `m · 2 ^ e < 10 ^ k`, for a positive `m`. -/
def decimalScale (m : Nat) (e : Int) : Int :=
  let estimate := Int.fdiv (((m.log2 : Int) + e) * 30103) 100000
  let fits := fun k : Int => compareScaled 1 k m e == .gt
  if fits estimate then estimate
  else if fits (estimate + 1) then estimate + 1
  else estimate + 2

/-- The neighbour of `m · 2 ^ e` on the grid of multiples of `10 ^ i` that rounds to it; the
nearer one if both do. -/
def onGrid? (m : Nat) (e i : Int) : Option Nat :=
  let num := m * Nat.pow 2 e.toNat * Nat.pow 10 (-i).toNat
  let den := Nat.pow 2 (-e).toNat * Nat.pow 10 i.toNat
  let below := num / den
  match roundsTo m e below i, roundsTo m e (below + 1) i with
  | true, true => some (divideToEven num den)
  | true, false => some below
  | false, true => some (below + 1)
  | false, false => none

/-- The digits of a positive double and the place of its point in front of them, tried on grids
of `count`, `count + 1`, … digits. -/
def search (m : Nat) (e scale : Int) : Nat → Nat → Nat × Int
  | 0, count => ((onGrid? m e (scale - count)).getD m, scale - count)
  | fuel + 1, count =>
    match onGrid? m e (scale - count) with
    | some digits => (digits, scale - count)
    | none => search m e scale fuel (count + 1)

/-- The shortest digits that round to `m · 2 ^ e`, and the number of them in front of the
point. -/
def shortest (m : Nat) (e : Int) : List Char × Int :=
  let (digits, i) := search m e (decimalScale m e) 16 1
  let cs := Nat.toDigits 10 digits
  (Text.dropEndWhile (· == '0') cs, cs.length + i)

/-- Digits with the point behind the first `place` of them. -/
def positional (digits : List Char) (place : Int) : List Char :=
  if place ≤ 0 then ['0', '.'] ++ List.replicate (-place).toNat '0' ++ digits
  else if digits.length ≤ place then
    digits ++ List.replicate (place.toNat - digits.length) '0' ++ ['.', '0']
  else digits.take place.toNat ++ ['.'] ++ digits.drop place.toNat

/-- Digits with the point behind the first one and an exponent. -/
def scientific (digits : List Char) (exponent : Int) : List Char :=
  let fraction := match digits.drop 1 with
    | [] => []
    | ds => '.' :: ds
  let places := Nat.toDigits 10 exponent.natAbs
  digits.take 1 ++ fraction ++ ['e', if exponent < 0 then '-' else '+']
    ++ List.replicate (2 - places.length) '0' ++ places

/-- The shortest text that reads back to a finite double. -/
def finiteText (m : Nat) (e : Int) : List Char :=
  if m == 0 then ['0', '.', '0']
  else
    let (digits, place) := shortest m e
    if -4 < place && place ≤ 16 then positional digits place else scientific digits (place - 1)

/-- The text of a double, given the words for not-a-number and infinity. -/
def textWith (notANumber infinite : String) : Binary64 → String
  | .nan => notANumber
  | .infinity negative => (if negative then "-" else "") ++ infinite
  | .finite negative m e =>
    (if negative then "-" else "") ++ String.ofList (finiteText m e)

/-- The text of a double in messages and in code. -/
def text : Binary64 → String :=
  textWith "nan" "inf"

end LivePreview.Number.Binary64
