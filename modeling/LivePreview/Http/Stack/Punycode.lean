/-
  LivePreview.Http.Stack.Punycode
  ───────────────────────────────
  **Texts of any characters written in ASCII.**

  The characters of ASCII come first, and a hyphen behind them if there are any.  Then,
  in the order of their codes, every other character is told by how many places it lies
  behind the one before it, where all codes at all places count as places.  Such a
  number is written with letters and digits, the lowest digit first; where its last
  digit has to be depends on the numbers in front of it (`adapted`).
-/
namespace LivePreview.Text.Punycode

/-! ## §1. Numbers -/

/-- The character of a digit below 36. -/
def digitChar (digit : Nat) : Char :=
  if digit < 26 then Char.ofNat ('a'.toNat + digit) else Char.ofNat ('0'.toNat + (digit - 26))

/-- The digit of a character. -/
def digit? (c : Char) : Option Nat :=
  if 'a' ≤ c && c ≤ 'z' then some (c.toNat - 'a'.toNat)
  else if 'A' ≤ c && c ≤ 'Z' then some (c.toNat - 'A'.toNat)
  else if '0' ≤ c && c ≤ '9' then some (c.toNat - '0'.toNat + 26)
  else none

/-- A digit at a place is the last one of its number if it is smaller than this. -/
def threshold (bias place : Nat) : Nat :=
  max 1 (min 26 (36 * (place + 1) - bias))

/-- Divide a number by 35 until it is small, and count 36 for each time. -/
def shrink (n : Nat) : Nat × Nat :=
  if 455 < n then
    let (rest, steps) := shrink (n / 35)
    (rest, steps + 36)
  else (n, 0)
termination_by n

/-- The bias behind a number, when `count` characters have been read. -/
def adapted (number count : Nat) (isFirst : Bool) : Nat :=
  let scaled := if isFirst then number / 700 else number / 2
  let (rest, steps) := shrink (scaled + scaled / count)
  steps + 36 * rest / (rest + 38)

/-- The digits of a number from a place on. -/
def digitsFrom (bias place number : Nat) : List Char :=
  let least := threshold bias place
  if _h : number < least then [digitChar number]
  else
    digitChar (least + (number - least) % (36 - least))
      :: digitsFrom bias (place + 1) ((number - least) / (36 - least))
termination_by number
decreasing_by
  have : 1 ≤ threshold bias place := Nat.le_max_left _ _
  have := Nat.div_le_self (number - threshold bias place) (36 - threshold bias place)
  omega

/-! ## §2. Writing -/

/-- What has been written behind the hyphen. -/
structure Writing where
  digits : List Char := []
  bias : Nat := 72
  /-- How many characters have been written, those of ASCII included. -/
  count : Nat
  /-- How many places lie behind the character written last. -/
  gap : Nat := 0

/-- Pass a character of the text while those with a code are written. -/
def Writing.pass (base code : Nat) (writing : Writing) (c : Char) : Writing :=
  if c.toNat < code then { writing with gap := writing.gap + 1 }
  else if c.toNat == code then
    { digits := writing.digits ++ digitsFrom writing.bias 0 writing.gap
      bias := adapted writing.gap (writing.count + 1) (writing.count == base)
      count := writing.count + 1 }
  else writing

/-- Write all characters with a code, when those below `least` have been written. -/
def Writing.addCode (text : List Char) (base : Nat) (state : Writing × Nat) (code : Nat) :
    Writing × Nat :=
  let (writing, least) := state
  let start := { writing with gap := writing.gap + (code - least) * (writing.count + 1) }
  let passed := text.foldl (Writing.pass base code) start
  ({ passed with gap := passed.gap + 1 }, code + 1)

/-- The text in ASCII. -/
def encode (text : List Char) : List Char :=
  let (ascii, others) := text.partition fun c => c.toNat < 0x80
  let codes := ((others.map Char.toNat).mergeSort (· ≤ ·)).eraseReps
  let start : Writing := { count := ascii.length }
  let written := (codes.foldl (Writing.addCode text ascii.length) (start, 0x80)).1.digits
  if ascii.isEmpty then written else ascii ++ '-' :: written

/-! ## §3. Reading -/

/-- What has been read.  A code may be that of a surrogate. -/
structure Reading where
  codes : List Nat
  /-- The code and the place of the character read last. -/
  code : Nat := 0x80
  next : Nat := 0
  bias : Nat := 72
  isFirst : Bool := true
  /-- The digits of a number that has begun: how many, what they are worth, and what the next one
  counts for. -/
  place : Nat := 0
  number : Nat := 0
  weight : Nat := 1

/-- Put the character in that a number tells; `none` if there is no such code. -/
def Reading.place? (reading : Reading) (number : Nat) : Option Reading :=
  let count := reading.codes.length + 1
  let position := reading.next + number
  let code := reading.code + position / count
  if 0x10FFFF < code then none
  else
    some
      { codes := reading.codes.insertIdx (position % count) code
        code
        next := position % count + 1
        bias := adapted number count reading.isFirst
        isFirst := false }

/-- Read a digit. -/
def Reading.add? (reading : Reading) (c : Char) : Option Reading := do
  let digit ← digit? c
  let number := reading.number + digit * reading.weight
  let least := threshold reading.bias reading.place
  if digit < least then reading.place? number
  else
    return { reading with
      place := reading.place + 1
      number
      weight := reading.weight * (36 - least) }

/-- The codes of a text that is written in ASCII; `none` if it breaks off or holds what is no
digit. -/
def decode? (cs : List Char) : Option (List Nat) := do
  let digits := (cs.reverse.takeWhile (· != '-')).reverse
  let ascii := cs.take (cs.length - digits.length - 1)
  let read ← digits.foldlM Reading.add? { codes := ascii.map Char.toNat }
  if read.place == 0 then return read.codes else none

end LivePreview.Text.Punycode
