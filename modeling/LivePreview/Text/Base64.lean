/-
  LivePreview.Text.Base64
  ───────────────────────
  **Bytes as base-64 text.**

  `encode` writes three bytes as four letters and pads the last group.  `decode`
  is forgiving: characters outside the alphabet are skipped, a padding character
  that cannot end a group is skipped too, and everything after a padding that
  does end one is ignored.  What it refuses is a text that breaks off inside a
  group, and a text that is not ASCII.
-/
namespace LivePreview.Text.Base64

/-- The letters of the alphabet in the order of their values. -/
def alphabet : List Char :=
  "ABCDEFGHIJKLMNOPQRSTUVWXYZabcdefghijklmnopqrstuvwxyz0123456789+/".toList

/-- The letter of a six-bit value. -/
def letter (value : Nat) : Char :=
  alphabet.getD value '='

/-- The six-bit value of a letter. -/
def value? (c : Char) : Option Nat :=
  if 'A' ≤ c && c ≤ 'Z' then some (c.toNat - 'A'.toNat)
  else if 'a' ≤ c && c ≤ 'z' then some (c.toNat - 'a'.toNat + 26)
  else if '0' ≤ c && c ≤ '9' then some (c.toNat - '0'.toNat + 52)
  else if c == '+' then some 62
  else if c == '/' then some 63
  else none

/-- The text of a list of bytes. -/
def encode : List UInt8 → List Char
  | [] => []
  | [a] =>
    let n := a.toNat
    [letter (n / 4), letter (n % 4 * 16), '=', '=']
  | [a, b] =>
    let m := a.toNat
    let n := b.toNat
    [letter (m / 4), letter (m % 4 * 16 + n / 16), letter (n % 16 * 4), '=']
  | a :: b :: c :: rest =>
    let l := a.toNat
    let m := b.toNat
    let n := c.toNat
    letter (l / 4) :: letter (l % 4 * 16 + m / 16) :: letter (m % 16 * 4 + n / 64)
      :: letter (n % 64) :: encode rest

/-- Why a text is not base-64. -/
inductive Fault where
  /-- The text holds a character beyond ASCII. -/
  | notAscii
  /-- One letter is left over after the last group of four. -/
  | looseLetter
  /-- The last group lacks its padding. -/
  | missingPadding
  deriving DecidableEq, Repr

/-- Read on inside a group: `place` letters of it are read, `carry` holds the bits of the last
one that are not yet part of a byte, and `pads` padding characters stand at its end. -/
def decodeFrom (place carry pads : Nat) : List Char → Except Fault (List UInt8)
  | [] =>
    if place == 0 then .ok []
    else if place == 1 then .error .looseLetter
    else .error .missingPadding
  | c :: rest =>
    if c == '=' then
      if 2 ≤ place then
        if 4 ≤ place + (pads + 1) then .ok [] else decodeFrom place carry (pads + 1) rest
      else decodeFrom place carry pads rest
    else
      match value? c with
      | none => decodeFrom place carry pads rest
      | some v =>
        match place with
        | 0 => decodeFrom 1 v 0 rest
        | 1 => (UInt8.ofNat (carry * 4 + v / 16) :: ·) <$> decodeFrom 2 (v % 16) 0 rest
        | 2 => (UInt8.ofNat (carry * 16 + v / 4) :: ·) <$> decodeFrom 3 (v % 4) 0 rest
        | _ => (UInt8.ofNat (carry * 64 + v) :: ·) <$> decodeFrom 0 0 0 rest

/-- The bytes that a text stands for. -/
def decode (cs : List Char) : Except Fault (List UInt8) :=
  if cs.all fun c => c.toNat < 0x80 then decodeFrom 0 0 0 cs else .error .notAscii

end LivePreview.Text.Base64
