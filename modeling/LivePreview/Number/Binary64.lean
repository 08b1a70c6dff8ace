/-
  LivePreview.Number.Binary64
  ───────────────────────────
  **Double-precision numbers as exact values.**

  A finite double is `± mantissa · 2 ^ exponent` with a mantissa below `2 ^ 53` and
  an exponent from -1074 to 971.  Everything is computed on that form in exact
  arithmetic and rounded once, to the nearest double and on a tie to the even
  mantissa (`ofRatio`):

  * `ofDecimal` — the double nearest to a decimal number;
  * `succ` — the double nearest to a double plus one;
  * `toInt?` — the whole number that a double is, if it is one;
  * `read?` — the double that a decimal numeral stands for.
-/
import LivePreview.Number.Numeral

namespace LivePreview.Number

open LivePreview.Text

/-- A double-precision number. -/
inductive Binary64 where
  | nan
  | infinity (negative : Bool)
  | finite (negative : Bool) (mantissa : Nat) (exponent : Int)
  deriving DecidableEq, Repr, Inhabited

namespace Binary64

/-! ## §1. Rounding -/

/-- The quotient of two numbers, rounded to the nearest one and on a tie to the even one. -/
def divideToEven (num den : Nat) : Nat :=
  let q := num / den
  let r := num % den
  match compare (2 * r) den with
  | .lt => q
  | .gt => q + 1
  | .eq => if q % 2 == 0 then q else q + 1

/-- `num · 2 ^ (-e) / den` as a fraction of natural numbers. -/
def scaled (num den : Nat) (e : Int) : Nat × Nat :=
  (num * Nat.pow 2 (-e).toNat, den * Nat.pow 2 e.toNat)

/-- The exponent at which `num / den` has a mantissa of fifty-three bits. -/
def exponentOf (num den : Nat) : Int :=
  let e : Int := (num.log2 : Int) - den.log2 - 52
  let (n, d) := scaled num den e
  if n < Nat.pow 2 52 * d then e - 1 else e

/-- The double nearest to `± num / den`. -/
def ofRatio (negative : Bool) (num den : Nat) : Binary64 :=
  if num == 0 then .finite negative 0 (-1074)
  else
    let e := max (exponentOf num den) (-1074)
    let (n, d) := scaled num den e
    let m := divideToEven n d
    let (m, e) := if m == Nat.pow 2 53 then (Nat.pow 2 52, e + 1) else (m, e)
    if 971 < e then .infinity negative else .finite negative m e

/-- The double nearest to `± digits · 10 ^ exponent`. -/
def ofDecimal (negative : Bool) (digits : Nat) (exponent : Int) : Binary64 :=
  let magnitude := ((Nat.toDigits 10 digits).length : Int) + exponent
  if digits == 0 || magnitude < -330 then .finite negative 0 (-1074)
  else if 310 < magnitude then .infinity negative
  else ofRatio negative (digits * Nat.pow 10 exponent.toNat) (Nat.pow 10 (-exponent).toNat)

/-! ## §2. Arithmetic -/

/-- The double nearest to the number plus one. -/
def succ : Binary64 → Binary64
  | .finite negative m e =>
    let den : Nat := Nat.pow 2 (-e).toNat
    let sum : Int := signed negative (m * Nat.pow 2 e.toNat) + den
    ofRatio (sum < 0) sum.natAbs den
  | x => x

/-- The whole number that a double is, if it is one. -/
def toInt? : Binary64 → Option Int
  | .finite negative m e =>
    let den := Nat.pow 2 (-e).toNat
    if m % den == 0 then some (signed negative (m / den * Nat.pow 2 e.toNat)) else none
  | _ => none

/-- The double is less than a whole number. -/
def isBelow (n : Int) : Binary64 → Bool
  | .nan => false
  | .infinity negative => negative
  | .finite negative m e =>
    signed negative (m * Nat.pow 2 e.toNat) < n * (Nat.pow 2 (-e).toNat : Nat)

/-- The double is greater than a whole number. -/
def isAbove (n : Int) : Binary64 → Bool
  | .nan => false
  | .infinity negative => !negative
  | .finite negative m e =>
    n * (Nat.pow 2 (-e).toNat : Nat) < signed negative (m * Nat.pow 2 e.toNat)

/-! ## §3. Numerals -/

/-- Every low line stands between two ASCII digits. -/
def barsBetweenDigits : Char → List Char → Bool
  | previous, [] => previous != '_'
  | previous, c :: cs =>
    (if c == '_' then previous.isDigit else previous != '_' || c.isDigit)
      && barsBetweenDigits c cs

/-- The signed exponent behind its mark: nothing, or the mark and at least one digit. -/
def exponent? : List Char → Option Int
  | [] => some 0
  | c :: cs =>
    if c == 'e' || c == 'E' then
      let (negative, ds) := splitSign cs
      if !ds.isEmpty && ds.all Char.isDigit then
        some (signed negative (ofDigits 10 (ds.map fun d => d.toNat - '0'.toNat)))
      else none
    else none

/-- The number that digits with an optional point and exponent stand for. -/
def unsignedNumeral? (negative : Bool) (cs : List Char) : Option Binary64 :=
  let whole := cs.takeWhile Char.isDigit
  let rest := cs.dropWhile Char.isDigit
  let (fraction, tail) := match rest with
    | '.' :: more => (more.takeWhile Char.isDigit, more.dropWhile Char.isDigit)
    | _ => ([], rest)
  if whole.isEmpty && fraction.isEmpty then none
  else
    (exponent? tail).map fun e =>
      let value := ofDigits 10 ((whole ++ fraction).map fun d => d.toNat - '0'.toNat)
      ofDecimal negative value (e - fraction.length)

/-- The number that a numeral, infinity or not-a-number stands for, sign apart. -/
def unsigned? (negative : Bool) (cs : List Char) : Option Binary64 :=
  let word := cs.map Char.toLower
  if word == "inf".toList || word == "infinity".toList then some (.infinity negative)
  else if word == "nan".toList then some .nan
  else unsignedNumeral? negative cs

/-- Read a padded numeral with an optional sign, point and exponent. -/
def read? (text : String) : Option Binary64 :=
  let cs := trimWhile isAsciiBlank (plainNumeral text.toList)
  if barsBetweenDigits ' ' cs then
    let (negative, cs) := splitSign (cs.filter (· != '_'))
    unsigned? negative cs
  else none

end Binary64

end LivePreview.Number
