/-
  LivePreview.Proofs.Text.Base64
  ──────────────────────────────
  **Base-64 text is read back as the bytes that it was written from.**

  A letter has the six-bit value that it was chosen for (`value?_letter`), so that what is
  read inside a group is known from what has been written (`decodeFrom_letter`).  Three bytes
  are four letters, and reading these ends where reading started (`decodeFrom_first`,
  `decodeFrom_second`, `decodeFrom_third`):

      place     0        1           2           3        0
      letter    a / 4    a, b / 16   b, c / 64   c
      bytes              a           b           c

  One or two bytes at the end are a group that breaks off, with padding in place of the
  letters that are left out (`decode_encode`).
-/
import LivePreview.Text.Base64

namespace LivePreview.Text.Base64

/-! ## §1. Letters -/

/-- **A letter has the value that it stands for.** -/
theorem value?_letter {v : Nat} (h : v < 64) : value? (letter v) = some v := by
  revert v
  decide +kernel

theorem letter_ne_pad {v : Nat} (h : v < 64) : letter v ≠ '=' := by
  revert v
  decide +kernel

/-- Every letter is an ASCII character, and so is the padding. -/
theorem toNat_letter_lt (v : Nat) : (letter v).toNat < 0x80 := by
  by_cases h : v < 64
  · revert v
    decide +kernel
  · have hlength : alphabet.length = 64 := by decide +kernel
    have hpad : letter v = '=' := by
      unfold letter
      rw [List.getD_eq_getElem?_getD, List.getElem?_eq_none (by omega), Option.getD_none]
    rw [hpad]
    decide +kernel

/-- What is read at a letter, by the place in the group. -/
theorem decodeFrom_letter (place carry pads : Nat) {v : Nat} (h : v < 64) (cs : List Char) :
    decodeFrom place carry pads (letter v :: cs) =
      match place with
      | 0 => decodeFrom 1 v 0 cs
      | 1 => (UInt8.ofNat (carry * 4 + v / 16) :: ·) <$> decodeFrom 2 (v % 16) 0 cs
      | 2 => (UInt8.ofNat (carry * 16 + v / 4) :: ·) <$> decodeFrom 3 (v % 4) 0 cs
      | _ => (UInt8.ofNat (carry * 64 + v) :: ·) <$> decodeFrom 0 0 0 cs := by
  have hpad : (letter v == '=') = false := beq_eq_false_iff_ne.mpr (letter_ne_pad h)
  have hvalue : value? (letter v) = some v := value?_letter h
  rw [decodeFrom, hpad, if_neg Bool.false_ne_true]
  exact hvalue ▸ rfl

/-! ## §2. Groups -/

theorem ofNat_eq {n : Nat} {byte : UInt8} (h : n = byte.toNat) : UInt8.ofNat n = byte := by
  rw [h]
  exact UInt8.ofNat_toNat

section Groups

variable (a b c : UInt8) (cs : List Char)

/-- Two letters are the first byte, with what of them goes to the second one. -/
theorem decodeFrom_first {low : Nat} (hlow : low < 16) :
    decodeFrom 0 0 0 (letter (a.toNat / 4) :: letter (a.toNat % 4 * 16 + low) :: cs)
      = (a :: ·) <$> decodeFrom 2 low 0 cs := by
  have ha := a.toNat_lt
  have hbyte : a.toNat / 4 * 4 + (a.toNat % 4 * 16 + low) / 16 = a.toNat := by omega
  have hcarry : (a.toNat % 4 * 16 + low) % 16 = low := by omega
  rw [decodeFrom_letter 0 _ _ (by omega), decodeFrom_letter 1 _ _ (by omega), hcarry, ofNat_eq hbyte]
  rfl

/-- A third letter ends the second byte. -/
theorem decodeFrom_second {low : Nat} (hlow : low < 4) :
    decodeFrom 2 (b.toNat / 16) 0 (letter (b.toNat % 16 * 4 + low) :: cs)
      = (b :: ·) <$> decodeFrom 3 low 0 cs := by
  have hb := b.toNat_lt
  have hbyte : b.toNat / 16 * 16 + (b.toNat % 16 * 4 + low) / 4 = b.toNat := by omega
  have hcarry : (b.toNat % 16 * 4 + low) % 4 = low := by omega
  rw [decodeFrom_letter 2 _ _ (by omega), hcarry, ofNat_eq hbyte]
  rfl

/-- A fourth letter ends the third byte, and the group. -/
theorem decodeFrom_third :
    decodeFrom 3 (c.toNat / 64) 0 (letter (c.toNat % 64) :: cs) = (c :: ·) <$> decodeFrom 0 0 0 cs := by
  have hc := c.toNat_lt
  have hbyte : c.toNat / 64 * 64 + c.toNat % 64 = c.toNat := by omega
  rw [decodeFrom_letter 3 _ _ (by omega), ofNat_eq hbyte]
  rfl

end Groups

/-! ## §3. Bytes -/

theorem decodeFrom_encode (bytes : List UInt8) : decodeFrom 0 0 0 (encode bytes) = .ok bytes := by
  -- induction along the groups of three bytes
  induction bytes using encode.induct with
  | case1 => rfl
  | case2 a =>
    have hfirst := decodeFrom_first a ['=', '='] (show 0 < 16 by omega)
    rw [Nat.add_zero] at hfirst
    rw [encode, hfirst]
    rfl
  | case3 a b =>
    have hb := b.toNat_lt
    have hsecond := decodeFrom_second b ['='] (show 0 < 4 by omega)
    rw [Nat.add_zero] at hsecond
    rw [encode, decodeFrom_first a _ (by omega), hsecond]
    rfl
  | case4 a b c rest ih =>
    have hb := b.toNat_lt
    have hc := c.toNat_lt
    rw [encode, decodeFrom_first a _ (by omega), decodeFrom_second b _ (by omega), decodeFrom_third, ih]
    rfl

theorem toNat_lt_of_mem_encode {bytes : List UInt8} {c : Char} (h : c ∈ encode bytes) : c.toNat < 0x80 := by
  have hpad : '='.toNat < 0x80 := by decide
  induction bytes using encode.induct with
  | case1 => exact absurd h List.not_mem_nil
  | case2 a =>
    simp only [encode, List.mem_cons, List.not_mem_nil, or_false] at h
    rcases h with rfl | rfl | rfl | rfl
    · exact toNat_letter_lt _
    · exact toNat_letter_lt _
    · exact hpad
    · exact hpad
  | case3 a b =>
    simp only [encode, List.mem_cons, List.not_mem_nil, or_false] at h
    rcases h with rfl | rfl | rfl | rfl
    · exact toNat_letter_lt _
    · exact toNat_letter_lt _
    · exact toNat_letter_lt _
    · exact hpad
  | case4 a b c rest ih =>
    simp only [encode, List.mem_cons] at h
    rcases h with rfl | rfl | rfl | rfl | hrest
    · exact toNat_letter_lt _
    · exact toNat_letter_lt _
    · exact toNat_letter_lt _
    · exact toNat_letter_lt _
    · exact ih hrest

/-- **What has been written is read back.** -/
theorem decode_encode (bytes : List UInt8) : decode (encode bytes) = .ok bytes := by
  have hascii : ((encode bytes).all fun c => c.toNat < 0x80) = true := by
    rw [List.all_eq_true]
    intro c hc
    exact decide_eq_true (toNat_lt_of_mem_encode hc)
  unfold decode
  rw [if_pos hascii, decodeFrom_encode]

end LivePreview.Text.Base64
