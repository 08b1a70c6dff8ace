/-
  LivePreview.Text.Percent
  ────────────────────────
  **Percent-encoded text.**

  A percent sign with two hexadecimal digits behind it stands for a byte; any other
  percent sign stands for itself.  The bytes are read as UTF-8 without ever failing: bytes
  that make up a character are read as that character.  Where they do not, the longest
  beginning of a character that stands there is read as one replacement character, and a
  byte that begins none as one of its own (`readFrom`).
-/
import LivePreview.Text.Basic

namespace LivePreview.Text.Utf8

/-! ## §1. Bytes -/

/-- A character that has begun: how many of its bytes are still to come, between which bounds the
next one lies, and the bits that are read. -/
structure Pending where
  tails : Nat
  least : Nat := 0x80
  most : Nat := 0xBF
  bits : Nat

/-- The character that a byte beyond ASCII begins. -/
def Pending.ofLead? (byte : Nat) : Option Pending :=
  if byte < 0xC2 then none
  else if byte < 0xE0 then some { tails := 1, bits := byte - 0xC0 }
  else if byte == 0xE0 then some { tails := 2, least := 0xA0, bits := 0 }
  else if byte == 0xED then some { tails := 2, most := 0x9F, bits := 0xD }
  else if byte < 0xF0 then some { tails := 2, bits := byte - 0xE0 }
  else if byte == 0xF0 then some { tails := 3, least := 0x90, bits := 0 }
  else if byte == 0xF4 then some { tails := 3, most := 0x8F, bits := 4 }
  else if byte < 0xF4 then some { tails := 3, bits := byte - 0xF0 }
  else none

/-- What stands in place of a character that has begun and is not completed. -/
def abandoned : Option Pending → List Char
  | some _ => ['\uFFFD']
  | none => []

/-- Read bytes, the first of which may go on with a character that has begun. -/
def readFrom (pending? : Option Pending) : List UInt8 → List Char
  | [] => abandoned pending?
  | byte :: bytes =>
    let b := byte.toNat
    match pending?.filter fun pending => pending.least ≤ b && b ≤ pending.most with
    | some pending =>
      let bits := pending.bits * 0x40 + (b - 0x80)
      if pending.tails ≤ 1 then Char.ofNat bits :: readFrom none bytes
      else readFrom (some { tails := pending.tails - 1, bits }) bytes
    | none =>
      abandoned pending? ++
        if b < 0x80 then Char.ofNat b :: readFrom none bytes
        else
          match Pending.ofLead? b with
          | some pending => readFrom (some pending) bytes
          | none => '\uFFFD' :: readFrom none bytes

/-- Read bytes as UTF-8. -/
def read (bytes : List UInt8) : List Char :=
  readFrom none bytes

end LivePreview.Text.Utf8

namespace LivePreview.Text.Percent

/-! ## §2. Percent signs -/

/-- The byte that two hexadecimal digits stand for. -/
def byte? (high low : Char) : Option UInt8 := do
  let high ← hexDigit? high
  let low ← hexDigit? low
  return UInt8.ofNat (16 * high + low)

/-- The bytes that a percent-encoded text stands for. -/
def bytes : List Char → List UInt8
  | '%' :: high :: low :: cs =>
    match byte? high low with
    | some byte => byte :: bytes cs
    | none => 0x25 :: bytes (high :: low :: cs)
  | c :: cs => String.utf8EncodeChar c ++ bytes cs
  | [] => []

/-- The text that a percent-encoded text stands for. -/
def decode (cs : List Char) : List Char :=
  Utf8.read (bytes cs)

end LivePreview.Text.Percent
