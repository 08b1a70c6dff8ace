/-
  LivePreview.Http.Stack.Direction
  ────────────────────────────────
  **Marks, letters that join their neighbours, and the directions of characters.**

  A mark combines with the letter in front of it.  Some marks take room of their own,
  the others are silent.  In some scripts a letter is joined to the letter behind it,
  to the one in front of it, or to both, and marks do not come between them.

  Letters run to the right or to the left, and numbers have a direction of their own.
  A label with a character that runs to the left must not mix directions
  (`obeysDirections`).  The tables know the characters that host names may hold.
-/
import LivePreview.Text.Basic
import LivePreview.Text.LetterCase

namespace LivePreview.Text

/-! ## §1. Marks -/

/-- The marks, which combine with the character in front. -/
def markRanges : List (Nat × Nat) := [
  (0x0300, 0x036F), (0x0483, 0x0487), (0x0591, 0x05C7), (0x0610, 0x061A), (0x064B, 0x065F),
  (0x0670, 0x0670), (0x06D6, 0x06E4), (0x06E7, 0x06ED), (0x0711, 0x0711), (0x0730, 0x074A),
  (0x07A6, 0x07B0), (0x07EB, 0x07F3), (0x07FD, 0x07FD), (0x0816, 0x0819), (0x081B, 0x0823),
  (0x0825, 0x0827), (0x0829, 0x082D), (0x0859, 0x085B), (0x0898, 0x089F), (0x08CA, 0x0903),
  (0x093A, 0x093C), (0x093E, 0x094F), (0x0951, 0x0957), (0x0962, 0x0963), (0x0981, 0x0983),
  (0x09BC, 0x09BC), (0x09BE, 0x09CD), (0x09D7, 0x09D7), (0x09E2, 0x09E3), (0x09FE, 0x0A03),
  (0x0A3C, 0x0A51), (0x0A70, 0x0A71), (0x0A75, 0x0A83), (0x0ABC, 0x0ABC), (0x0ABE, 0x0ACD),
  (0x0AE2, 0x0AE3), (0x0AFA, 0x0B03), (0x0B3C, 0x0B3C), (0x0B3E, 0x0B57), (0x0B62, 0x0B63),
  (0x0B82, 0x0B82), (0x0BBE, 0x0BCD), (0x0BD7, 0x0BD7), (0x0C00, 0x0C04), (0x0C3C, 0x0C3C),
  (0x0C3E, 0x0C56), (0x0C62, 0x0C63), (0x0C81, 0x0C83), (0x0CBC, 0x0CBC), (0x0CBE, 0x0CD6),
  (0x0CE2, 0x0CE3), (0x0D00, 0x0D03), (0x0D3B, 0x0D3C), (0x0D3E, 0x0D4D), (0x0D57, 0x0D57),
  (0x0D62, 0x0D63), (0x0D81, 0x0D83), (0x0DCA, 0x0DDF), (0x0DF2, 0x0DF3), (0x0E31, 0x0E31),
  (0x0E34, 0x0E3A), (0x0E47, 0x0E4E), (0x0EB1, 0x0EB1), (0x0EB4, 0x0EBC), (0x0EC8, 0x0ECD),
  (0x0F18, 0x0F19), (0x0F35, 0x0F3F), (0x0F71, 0x0F87), (0x0F8D, 0x0FC6), (0x102B, 0x103E),
  (0x1056, 0x1059), (0x105E, 0x1060), (0x1062, 0x1064), (0x1067, 0x106D), (0x1071, 0x1074),
  (0x1082, 0x108D), (0x108F, 0x108F), (0x109A, 0x109D), (0x135D, 0x135F), (0x1712, 0x1715),
  (0x1732, 0x1734), (0x1752, 0x1753), (0x1772, 0x1773), (0x17B6, 0x17D3), (0x17DD, 0x17DD),
  (0x1885, 0x1886), (0x18A9, 0x18A9), (0x1920, 0x193B), (0x1A17, 0x1A1B), (0x1A55, 0x1A7F),
  (0x1AB0, 0x1B04), (0x1B34, 0x1B44), (0x1B6B, 0x1B82), (0x1BA1, 0x1BAD), (0x1BE6, 0x1BF3),
  (0x1C24, 0x1C37), (0x1CD0, 0x1CE8), (0x1CED, 0x1CED), (0x1CF4, 0x1CF4), (0x1CF7, 0x1CF9),
  (0x1DC0, 0x1DFF), (0x2CEF, 0x2CF1), (0x2D7F, 0x2D7F), (0x2DE0, 0x2DFF), (0x302A, 0x302D),
  (0x3099, 0x309A), (0xA66F, 0xA67D), (0xA69E, 0xA69F), (0xA6F0, 0xA6F1), (0xA802, 0xA802),
  (0xA806, 0xA806), (0xA80B, 0xA80B), (0xA823, 0xA82C), (0xA880, 0xA881), (0xA8B4, 0xA8C5),
  (0xA8E0, 0xA8F1), (0xA8FF, 0xA8FF), (0xA926, 0xA92D), (0xA947, 0xA983), (0xA9B3, 0xA9C0),
  (0xA9E5, 0xA9E5), (0xAA29, 0xAA36), (0xAA43, 0xAA43), (0xAA4C, 0xAA4D), (0xAA7B, 0xAA7D),
  (0xAAB0, 0xAAB0), (0xAAB2, 0xAAB4), (0xAAB7, 0xAAB8), (0xAABE, 0xAABF), (0xAAC1, 0xAAC1),
  (0xAAEB, 0xAAEF), (0xAAF5, 0xAAF6), (0xABE3, 0xABED), (0xFB1E, 0xFE2F), (0x101FD, 0x101FD),
  (0x102E0, 0x102E0), (0x10376, 0x1037A), (0x10A01, 0x10A0F), (0x10A38, 0x10A3F),
  (0x10AE5, 0x10AE6), (0x10D24, 0x10D27), (0x10EAB, 0x10EAC), (0x10F46, 0x10F50),
  (0x10F82, 0x10F85), (0x11000, 0x11002), (0x11038, 0x11046), (0x11070, 0x11070),
  (0x11073, 0x11074), (0x1107F, 0x11082), (0x110B0, 0x110C2), (0x11100, 0x11102),
  (0x11127, 0x11134), (0x11145, 0x11146), (0x11173, 0x11173), (0x11180, 0x11182),
  (0x111B3, 0x111C0), (0x111C9, 0x111CF), (0x1122C, 0x1123E), (0x112DF, 0x112EA),
  (0x11300, 0x11303), (0x1133B, 0x1133C), (0x1133E, 0x1134D), (0x11357, 0x11357),
  (0x11362, 0x11374), (0x11435, 0x11446), (0x1145E, 0x1145E), (0x114B0, 0x114C3),
  (0x115AF, 0x115C0), (0x115DC, 0x115DD), (0x11630, 0x11640), (0x116AB, 0x116B7),
  (0x1171D, 0x1172B), (0x1182C, 0x1183A), (0x11930, 0x1193E), (0x11940, 0x11940),
  (0x11942, 0x11943), (0x119D1, 0x119E0), (0x119E4, 0x119E4), (0x11A01, 0x11A0A),
  (0x11A33, 0x11A39), (0x11A3B, 0x11A47), (0x11A51, 0x11A5B), (0x11A8A, 0x11A99),
  (0x11C2F, 0x11C3F), (0x11C92, 0x11CB6), (0x11D31, 0x11D45), (0x11D47, 0x11D47),
  (0x11D8A, 0x11D97), (0x11EF3, 0x11EF6), (0x16AF0, 0x16AF4), (0x16B30, 0x16B36),
  (0x16F4F, 0x16F4F), (0x16F51, 0x16F92), (0x16FE4, 0x16FF1), (0x1BC9D, 0x1DAAF),
  (0x1E000, 0x1E02A), (0x1E130, 0x1E136), (0x1E2AE, 0x1E2AE), (0x1E2EC, 0x1E2EF),
  (0x1E8D0, 0x1E8D6), (0x1E944, 0x1E94A)]

/-- The silent marks that run to the right like letters. -/
def rightwardMarks : List (Nat × Nat) := [
  (0x0CBF, 0x0CBF), (0x0CC6, 0x0CC6), (0x11A07, 0x11A08), (0x11C3F, 0x11C3F)]

/-- A character that combines with the one in front of it. -/
def isMark (c : Char) : Bool :=
  inRanges markRanges c.toNat

/-- A mark that takes no room of its own. -/
def isSilentMark (c : Char) : Bool :=
  isMark c && inRanges caseIgnorable c.toNat

/-! ## §2. Letters -/

/-- The letters that join only the one behind them. -/
def forwardJoiners : List (Nat × Nat) := [
  (0xA872, 0xA872), (0x10ACD, 0x10ACD), (0x10AD7, 0x10AD7), (0x10D00, 0x10D00)]

/-- The letters that join only the one in front of them. -/
def backwardJoiners : List (Nat × Nat) := [
  (0x0622, 0x0625), (0x0627, 0x0627), (0x0629, 0x0629), (0x062F, 0x0632), (0x0648, 0x0648),
  (0x0671, 0x0673), (0x0688, 0x0699), (0x06C0, 0x06C0), (0x06C3, 0x06CB), (0x06CD, 0x06CD),
  (0x06CF, 0x06CF), (0x06D2, 0x06D5), (0x06EE, 0x06EF), (0x0710, 0x0710), (0x0715, 0x0719),
  (0x071E, 0x071E), (0x0728, 0x0728), (0x072A, 0x072A), (0x072C, 0x072C), (0x072F, 0x072F),
  (0x074D, 0x074D), (0x0759, 0x075B), (0x076B, 0x076C), (0x0771, 0x0771), (0x0773, 0x0774),
  (0x0778, 0x0779), (0x0840, 0x0840), (0x0846, 0x0847), (0x0849, 0x0849), (0x0854, 0x0854),
  (0x0856, 0x0858), (0x0867, 0x0867), (0x0869, 0x0882), (0x088E, 0x088E), (0x08AA, 0x08AC),
  (0x08AE, 0x08AE), (0x08B1, 0x08B2), (0x08B9, 0x08B9), (0x10AC5, 0x10AC5), (0x10AC7, 0x10ACA),
  (0x10ACE, 0x10AD2), (0x10ADD, 0x10ADD), (0x10AE1, 0x10AE1), (0x10AE4, 0x10AE4),
  (0x10B81, 0x10B81), (0x10B83, 0x10B85), (0x10B89, 0x10B89), (0x10B8C, 0x10B8C),
  (0x10B8E, 0x10B8F), (0x10B91, 0x10B91), (0x10D22, 0x10D22), (0x10F33, 0x10F33),
  (0x10F74, 0x10F75), (0x10FB4, 0x10FB6), (0x10FB9, 0x10FBA), (0x10FBD, 0x10FBD),
  (0x10FC2, 0x10FC3)]

/-- The letters that join both. -/
def dualJoiners : List (Nat × Nat) := [
  (0x0620, 0x0620), (0x0626, 0x0626), (0x0628, 0x0628), (0x062A, 0x062E), (0x0633, 0x0647),
  (0x0649, 0x064A), (0x066E, 0x066F), (0x0679, 0x0687), (0x069A, 0x06BF), (0x06C1, 0x06C2),
  (0x06CC, 0x06CC), (0x06CE, 0x06CE), (0x06D0, 0x06D1), (0x06FA, 0x06FC), (0x06FF, 0x06FF),
  (0x0712, 0x0714), (0x071A, 0x071D), (0x071F, 0x0727), (0x0729, 0x0729), (0x072B, 0x072B),
  (0x072D, 0x072E), (0x074E, 0x0758), (0x075C, 0x076A), (0x076D, 0x0770), (0x0772, 0x0772),
  (0x0775, 0x0777), (0x077A, 0x077F), (0x07CA, 0x07EA), (0x0841, 0x0845), (0x0848, 0x0848),
  (0x084A, 0x0853), (0x0855, 0x0855), (0x0860, 0x0860), (0x0862, 0x0865), (0x0868, 0x0868),
  (0x0886, 0x0886), (0x0889, 0x088D), (0x08A0, 0x08A9), (0x08AF, 0x08B0), (0x08B3, 0x08B8),
  (0x08BA, 0x08C8), (0x1820, 0x1878), (0x1887, 0x18A8), (0x18AA, 0x18AA), (0xA840, 0xA871),
  (0x10AC0, 0x10AC4), (0x10AD3, 0x10AD6), (0x10AD8, 0x10ADC), (0x10ADE, 0x10AE0),
  (0x10B80, 0x10B80), (0x10B82, 0x10B82), (0x10B86, 0x10B88), (0x10B8A, 0x10B8B),
  (0x10B8D, 0x10B8D), (0x10B90, 0x10B90), (0x10D01, 0x10D21), (0x10D23, 0x10D23),
  (0x10F30, 0x10F32), (0x10F34, 0x10F44), (0x10F70, 0x10F73), (0x10F76, 0x10F81),
  (0x10FB0, 0x10FB0), (0x10FB2, 0x10FB3), (0x10FB8, 0x10FB8), (0x10FBB, 0x10FBC),
  (0x10FBE, 0x10FBF), (0x10FC1, 0x10FC1), (0x10FC4, 0x10FC4), (0x1E922, 0x1E943)]

/-- The character does not come between letters that join. -/
def isTransparent (c : Char) : Bool :=
  (isSilentMark c && c.toNat != 0x1171E) || c.toNat == 0x1E94B

/-- The character joins the letter behind it. -/
def joinsForward (c : Char) : Bool :=
  inRanges forwardJoiners c.toNat || inRanges dualJoiners c.toNat

/-- The character joins the letter in front of it. -/
def joinsBackward (c : Char) : Bool :=
  inRanges backwardJoiners c.toNat || inRanges dualJoiners c.toNat

/-- The letters on both sides of a place join, marks apart; `before` starts at the place and runs
to the front. -/
def joinAcross (before after : List Char) : Bool :=
  (before.dropWhile isTransparent).head?.any joinsForward
    && (after.dropWhile isTransparent).head?.any joinsBackward

/-! ## §3. Directions -/

/-- The directions of characters. -/
inductive Direction where
  | toTheRight
  | toTheLeft
  | arabicLetter
  | arabicNumber
  | number
  | neutral
  /-- A mark takes the direction of the character it belongs to. -/
  | mark
  deriving DecidableEq, Repr

/-- The characters that run to the left, Arabic letters apart. -/
def leftwardRanges : List (Nat × Nat) := [
  (0x05D0, 0x05F4), (0x07C0, 0x07EA), (0x07F4, 0x07F5), (0x0800, 0x0815), (0x081A, 0x081A),
  (0x0824, 0x0824), (0x0828, 0x0828), (0x0840, 0x0858), (0x10800, 0x10A00), (0x10A10, 0x10A35),
  (0x10A60, 0x10AE4), (0x10B00, 0x10CF2), (0x10E80, 0x10EA9), (0x10EB0, 0x10F27),
  (0x10F70, 0x10F81), (0x10FB0, 0x10FF6), (0x1E800, 0x1E8C4), (0x1E922, 0x1E943),
  (0x1E94B, 0x1E959)]

/-- The Arabic letters. -/
def arabicLetterRanges : List (Nat × Nat) := [
  (0x0620, 0x064A), (0x066E, 0x066F), (0x0671, 0x06D5), (0x06E5, 0x06E6), (0x06EE, 0x06EF),
  (0x06FA, 0x0710), (0x0712, 0x072F), (0x074D, 0x07A5), (0x07B1, 0x07B1), (0x0860, 0x088E),
  (0x08A0, 0x08C9), (0xFE73, 0xFE73), (0x10D00, 0x10D23), (0x10F30, 0x10F45)]

/-- The Arabic digits. -/
def arabicNumberRanges : List (Nat × Nat) := [
  (0x0660, 0x0669), (0x10D30, 0x10D39)]

/-- The other digits that have no direction of their own script. -/
def numberRanges : List (Nat × Nat) := [
  (0x0030, 0x0039), (0x06F0, 0x06F9)]

/-- The characters without direction, the hyphen and the two joiners among them. -/
def neutralRanges : List (Nat × Nat) := [
  (0x002D, 0x002D), (0x200C, 0x200D),
  (0x00B7, 0x00B7), (0x02B9, 0x02BA), (0x02C6, 0x02CF), (0x02EC, 0x02EC), (0x0375, 0x0375),
  (0x2E2F, 0x2E2F), (0x30FB, 0x30FB), (0xA67F, 0xA67F), (0xA717, 0xA71F), (0xA788, 0xA788)]

/-- The direction of a character. -/
def Direction.of (c : Char) : Direction :=
  if inRanges neutralRanges c.toNat then .neutral
  else if inRanges numberRanges c.toNat then .number
  else if inRanges arabicNumberRanges c.toNat then .arabicNumber
  else if isSilentMark c && !inRanges rightwardMarks c.toNat then .mark
  else if inRanges arabicLetterRanges c.toNat then .arabicLetter
  else if inRanges leftwardRanges c.toNat then .toTheLeft
  else .toTheRight

/-- A character with the direction shows that the label runs to the left. -/
def Direction.isLeftward : Direction → Bool
  | .toTheLeft | .arabicLetter | .arabicNumber => true
  | _ => false

/-- The last character that is no mark may have the direction where a label runs to the left. -/
def Direction.mayEnd : Direction → Bool
  | .toTheLeft | .arabicLetter | .arabicNumber | .number => true
  | _ => false

/-- A label that runs to the left starts with a letter, ends with a letter or a digit and marks of
it, holds no character that runs to the right, and no digits of two sorts. -/
def obeysDirections (label : List Char) : Bool :=
  let directions := label.map Direction.of
  !directions.any Direction.isLeftward
    || ((directions.head? == some .toTheLeft || directions.head? == some .arabicLetter)
      && (directions.reverse.dropWhile (· == .mark)).head?.any Direction.mayEnd
      && !directions.contains .toTheRight
      && !(directions.contains .number && directions.contains .arabicNumber))

end LivePreview.Text
