/-
  LivePreview.Proofs.Lowering.JsxText
  ───────────────────────────────────
  **What is left of the white space in a text between elements.**

  A text consists of lines with breaks between them, and can be cut into lines in one way
  only (`lined_iff`).  The lines have spaces for tabs, lose the spaces at their broken ends
  (`trimmed`), vanish if nothing is left of them, and are joined with single spaces
  (`joined`).  A broken line vanishes exactly if it holds spaces and tabs only, so that the
  line which no space follows is the last one that does not vanish.

  A line that is not broken at all keeps its spaces, and may hold nothing else.  No line
  counts as filled then, so a space follows this one, and the text has a space too many.
  With `·` for a space and `↵` for a break:

      text      ·a·b·    a·↵·b    a↵·↵·b↵    ·↵·    ·
      cleaned   ·a·b·    a·b      a·b               ··

  Main statement: `clean_exact` — any other text becomes what its lines are joined to.
-/
import Mathlib.Data.List.DropRight
import LivePreview.Lowering.JsxText

namespace LivePreview.Lowering.JsxText

open LivePreview.Text (consPiece)

/-! ## §1. Lines -/

/-- No line break is among the characters. -/
def IsLine (line : List Char) : Prop :=
  '\n' ∉ line ∧ '\r' ∉ line

/-- The lines make up the text, with a carriage return and a line feed, a line feed, or a carriage
return between any two of them.  A carriage return in front of a line feed is no break of its own. -/
inductive Lined : List Char → List (List Char) → Prop where
  | last {line : List Char} (hline : IsLine line) : Lined line [line]
  | both {line rest : List Char} {lines : List (List Char)} (hline : IsLine line)
    (hrest : Lined rest lines) : Lined (line ++ '\r' :: '\n' :: rest) (line :: lines)
  | feed {line rest : List Char} {lines : List (List Char)} (hline : IsLine line)
    (hrest : Lined rest lines) : Lined (line ++ '\n' :: rest) (line :: lines)
  | back {line rest : List Char} {lines : List (List Char)} (hline : IsLine line)
    (hrest : Lined rest lines) (hapart : rest.head? ≠ some '\n') :
    Lined (line ++ '\r' :: rest) (line :: lines)

theorem isLine_nil : IsLine [] :=
  ⟨List.not_mem_nil, List.not_mem_nil⟩

theorem isLine_cons_iff {c : Char} {line : List Char} :
    IsLine (c :: line) ↔ (c ≠ '\n' ∧ c ≠ '\r') ∧ IsLine line := by
  unfold IsLine
  rw [List.mem_cons, List.mem_cons, not_or, not_or, ne_comm, and_and_and_comm, @ne_comm _ c '\r']

/-- A character that breaks no line stands in front of the first line. -/
theorem Lined.cons {cs : List Char} {lines : List (List Char)} (h : Lined cs lines) {c : Char}
    (hc : c ≠ '\n' ∧ c ≠ '\r') : Lined (c :: cs) (consPiece c lines) := by
  cases h with
  | last hline => exact .last (isLine_cons_iff.mpr ⟨hc, hline⟩)
  | both hline hrest => exact .both (isLine_cons_iff.mpr ⟨hc, hline⟩) hrest
  | feed hline hrest => exact .feed (isLine_cons_iff.mpr ⟨hc, hline⟩) hrest
  | back hline hrest hapart => exact .back (isLine_cons_iff.mpr ⟨hc, hline⟩) hrest hapart

theorem lined_splitLines (cs : List Char) : Lined cs (splitLines cs) := by
  fun_induction splitLines cs with
  | case1 => exact .last isLine_nil
  | case2 cs ih => exact .both isLine_nil ih
  | case3 cs c hapart hbreak ih =>
    -- a line feed, or a carriage return with no line feed behind it
    rcases Bool.or_eq_true_iff.mp hbreak with hc | hc
    · rw [beq_iff_eq.mp hc]
      exact .feed isLine_nil ih
    · rw [beq_iff_eq.mp hc]
      refine .back isLine_nil ih fun hhead => ?_
      obtain ⟨rest, hrest⟩ := List.head?_eq_some_iff.mp hhead
      exact hapart rest (beq_iff_eq.mp hc) hrest
  | case4 cs c hapart hbreak ih =>
    refine ih.cons ⟨?_, ?_⟩
    · rintro rfl
      exact hbreak rfl
    · rintro rfl
      exact hbreak rfl

/-- What stands in a line belongs to the first piece. -/
theorem splitLines_append {line : List Char} (hline : IsLine line) (rest : List Char) :
    splitLines (line ++ rest) = line.foldr consPiece (splitLines rest) := by
  induction line with
  | nil => rfl
  | cons c line ih =>
    obtain ⟨⟨hfeed, hback⟩, hline⟩ := isLine_cons_iff.mp hline
    rw [List.cons_append, List.foldr_cons, ← ih hline, splitLines]
    · rw [if_neg]
      rw [Bool.or_eq_true, beq_iff_eq, beq_iff_eq, not_or]
      exact ⟨hfeed, hback⟩
    · intro _ hc
      exact absurd hc hback

theorem foldr_consPiece (line piece : List Char) (pieces : List (List Char)) :
    line.foldr consPiece (piece :: pieces) = (line ++ piece) :: pieces := by
  induction line with
  | nil => rfl
  | cons c line ih => rw [List.foldr_cons, ih]; rfl

theorem Lined.eq_splitLines {cs : List Char} {lines : List (List Char)} (h : Lined cs lines) :
    lines = splitLines cs := by
  induction h with
  | @last line hline =>
    have hsplit := splitLines_append hline []
    rw [List.append_nil] at hsplit
    rw [hsplit, splitLines, foldr_consPiece, List.append_nil]
  | both hline _ ih => rw [splitLines_append hline, splitLines, foldr_consPiece, List.append_nil, ih]
  | feed hline _ ih =>
    rw [splitLines_append hline, splitLines, if_pos (by decide), foldr_consPiece, List.append_nil, ih]
    intro _ hc
    exact absurd hc (by decide)
  | back hline _ hapart ih =>
    rw [splitLines_append hline, splitLines, if_pos (by decide), foldr_consPiece, List.append_nil, ih]
    intro rest _ hrest
    rw [hrest] at hapart
    exact hapart rfl

/-- **A text can be cut into lines in one way only.** -/
theorem lined_iff {cs : List Char} {lines : List (List Char)} :
    Lined cs lines ↔ lines = splitLines cs :=
  ⟨Lined.eq_splitLines, fun h => h ▸ lined_splitLines cs⟩

/-! ## §2. What the lines should become -/

/-- Lines behind a break, without the spaces at their broken ends. -/
def trimmedBehind : List (List Char) → List (List Char)
  | [] => []
  | [line] => [line.dropWhile (· == ' ')]
  | line :: lines => (line.dropWhile (· == ' ')).rdropWhile (· == ' ') :: trimmedBehind lines

/-- The lines of a text without the spaces at their broken ends. -/
def trimmed : List (List Char) → List (List Char)
  | [] => []
  | [line] => [line]
  | line :: lines => line.rdropWhile (· == ' ') :: trimmedBehind lines

/-- The lines with spaces for tabs, trimmed, and joined with single spaces as far as something is
left of them. -/
def joined (lines : List (List Char)) : List Char :=
  [' '].intercalate ((trimmed (lines.map untab)).filter fun line => !line.isEmpty)

/-- There is something in the text, and only spaces and tabs. -/
def IsBlankRun (cs : List Char) : Prop :=
  cs ≠ [] ∧ ∀ c ∈ cs, c = ' ' ∨ c = '\t'

/-! ## §3. Lines that vanish -/

theorem isFilled_eq_false_iff {line : List Char} :
    isFilled line = false ↔ ∀ c ∈ line, c = ' ' ∨ c = '\t' := by
  unfold isFilled
  rw [List.any_eq_false]
  refine forall₂_congr fun c _ => ?_
  rw [Bool.and_eq_true, bne_iff_ne, bne_iff_ne, not_and_or, not_not, not_not]

theorem forall_untab_iff {line : List Char} :
    (∀ c ∈ untab line, c = ' ') ↔ isFilled line = false := by
  rw [isFilled_eq_false_iff]
  unfold untab
  rw [List.forall_mem_map]
  refine forall₂_congr fun c _ => ?_
  by_cases htab : c = '\t'
  · exact iff_of_true (if_pos (beq_iff_eq.mpr htab)) (.inr htab)
  · rw [if_neg fun h => htab (beq_iff_eq.mp h), or_iff_left htab]

theorem dropWhile_space_eq_nil_iff {line : List Char} :
    line.dropWhile (· == ' ') = [] ↔ ∀ c ∈ line, c = ' ' := by
  rw [List.dropWhile_eq_nil_iff]
  exact forall₂_congr fun c _ => beq_iff_eq

theorem rdropWhile_space_eq_nil_iff {line : List Char} :
    line.rdropWhile (· == ' ') = [] ↔ ∀ c ∈ line, c = ' ' := by
  rw [List.rdropWhile_eq_nil_iff]
  exact forall₂_congr fun c _ => beq_iff_eq

/-- What is left when the start of a line is trimmed holds other characters than spaces if the line
does. -/
theorem forall_dropWhile_space_iff {line : List Char} :
    (∀ c ∈ line.dropWhile (· == ' '), c = ' ') ↔ ∀ c ∈ line, c = ' ' := by
  constructor
  · intro h c hc
    rw [← List.takeWhile_append_dropWhile (p := (· == ' ')) (l := line)] at hc
    rcases List.mem_append.mp hc with hc | hc
    · exact beq_iff_eq.mp (List.mem_takeWhile_imp (p := (· == ' ')) hc)
    · exact h c hc
  · exact fun h c hc => h c ((List.dropWhile_suffix _).subset hc)

/-- **A line that is broken at an end vanishes exactly if it holds spaces and tabs only.** -/
theorem trimBroken_eq_nil_iff {isFirst isLast : Bool} (hbroken : (isFirst && isLast) = false)
    {line : List Char} : trimBroken isFirst isLast (untab line) = [] ↔ isFilled line = false := by
  rw [← forall_untab_iff]
  unfold trimBroken
  cases isFirst with
  | true =>
    rw [(Bool.true_and _).symm.trans hbroken]
    exact rdropWhile_space_eq_nil_iff
  | false =>
    cases isLast with
    | true => exact dropWhile_space_eq_nil_iff
    | false => exact rdropWhile_space_eq_nil_iff.trans forall_dropWhile_space_iff

/-! ## §4. Joining -/

/-- The number of the last filled line, where the first one has the number `start`. -/
def lastFilledFrom? (start : Nat) (lines : List (List Char)) : Option Nat :=
  (((lines.zipIdx start).filter fun (line, _) => isFilled line).getLast?).map Prod.snd

/-- What is left of a line, with a space behind it unless it is the last filled one. -/
def spaced (filled? : Option Nat) (number : Nat) (piece : List Char) : List Char :=
  if piece.isEmpty then [] else if filled? == some number then piece else piece ++ [' ']

theorem spaced_nil (filled? : Option Nat) (number : Nat) : spaced filled? number [] = [] :=
  rfl

theorem spaced_last (number : Nat) (piece : List Char) : spaced (some number) number piece = piece := by
  unfold spaced
  split
  · next hempty => exact (List.isEmpty_iff.mp hempty).symm
  · exact if_pos (beq_self_eq_true _)

theorem spaced_of_ne {filled? : Option Nat} {number : Nat} (hfilled : filled? ≠ some number)
    {piece : List Char} (hpiece : piece ≠ []) : spaced filled? number piece = piece ++ [' '] := by
  unfold spaced
  rw [if_neg fun h => hpiece (List.isEmpty_iff.mp h), if_neg fun h => hfilled (beq_iff_eq.mp h)]

theorem exists_of_lastFilledFrom? {start number : Nat} {lines : List (List Char)}
    (h : lastFilledFrom? start lines = some number) :
    start ≤ number ∧ ∃ line, (line, number) ∈ lines.zipIdx start ∧ isFilled line = true := by
  obtain ⟨⟨line, _⟩, hlast, rfl⟩ := Option.map_eq_some_iff.mp h
  obtain ⟨hmem, hfilled⟩ := List.mem_filter.mp (List.mem_of_getLast? hlast)
  exact ⟨List.le_snd_of_mem_zipIdx hmem, line, hmem, hfilled⟩

theorem isFilled_of_lastFilledFrom?_eq_none {start : Nat} {lines : List (List Char)}
    (h : lastFilledFrom? start lines = none) : ∀ p ∈ lines.zipIdx start, isFilled p.1 = false := by
  have hnil := List.getLast?_eq_none_iff.mp (Option.map_eq_none_iff.mp h)
  intro p hp
  exact (Bool.not_eq_true _).mp (List.filter_eq_nil_iff.mp hnil p hp)

/-- The last filled line behind the first one is the last of all, if there is one. -/
theorem lastFilledFrom?_cons (start : Nat) (line : List Char) (lines : List (List Char)) :
    lastFilledFrom? start (line :: lines)
      = (lastFilledFrom? (start + 1) lines).or (if isFilled line then some start else none) := by
  unfold lastFilledFrom?
  rw [List.zipIdx_cons, List.filter_cons]
  dsimp only
  split
  · rw [List.getLast?_cons]
    cases (((lines.zipIdx (start + 1)).filter fun (line, _) => isFilled line).getLast?) <;> rfl
  · rw [Option.or_none]

/-- A piece in front of others that are joined. -/
theorem intercalate_filter_cons (piece : List Char) (pieces : List (List Char)) :
    [' '].intercalate ((piece :: pieces).filter (!·.isEmpty))
      = if piece = [] then [' '].intercalate (pieces.filter (!·.isEmpty))
        else if pieces.filter (!·.isEmpty) = [] then piece
        else piece ++ [' '] ++ [' '].intercalate (pieces.filter (!·.isEmpty)) := by
  by_cases hpiece : piece = []
  · rw [if_pos hpiece, hpiece]
    rfl
  · rw [if_neg hpiece, List.filter_cons_of_pos (by simpa using hpiece)]
    split
    · next hnil => rw [hnil, List.intercalate_singleton]
    · next hne => rw [List.intercalate_cons_of_ne_nil hne]

/-- **Pieces with a space behind each of them but the last one are joined with spaces**, if a piece is
empty exactly where its line is not filled. -/
theorem flatMap_spaced {piece : List Char → Nat → List Char} {start : Nat} {lines : List (List Char)}
    (h : ∀ p ∈ lines.zipIdx start, piece p.1 p.2 = [] ↔ isFilled p.1 = false) :
    ((lines.zipIdx start).flatMap fun p => spaced (lastFilledFrom? start lines) p.2 (piece p.1 p.2))
      = [' '].intercalate (((lines.zipIdx start).map fun p => piece p.1 p.2).filter (!·.isEmpty)) := by
  induction lines generalizing start with
  | nil => rfl
  | cons line lines ih =>
    rw [List.zipIdx_cons] at h ⊢
    obtain ⟨hline, hrest⟩ := List.forall_mem_cons.mp h
    rw [List.flatMap_cons, List.map_cons, intercalate_filter_cons, lastFilledFrom?_cons]
    dsimp only
    cases hlast : lastFilledFrom? (start + 1) lines with
    | none =>
      -- nothing is left of the lines behind this one, and it is the last filled one if it is filled
      have hempty : ∀ p ∈ lines.zipIdx (start + 1), piece p.1 p.2 = [] :=
        fun p hp => (hrest p hp).mpr (isFilled_of_lastFilledFrom?_eq_none hlast p hp)
      have hfilter : ((lines.zipIdx (start + 1)).map fun p => piece p.1 p.2).filter (!·.isEmpty) = [] := by
        rw [List.filter_eq_nil_iff, List.forall_mem_map]
        intro p hp
        rw [hempty p hp]
        exact Bool.false_ne_true
      have hbehind : ((lines.zipIdx (start + 1)).flatMap fun p =>
          spaced (if isFilled line then some start else none) p.2 (piece p.1 p.2)) = [] := by
        refine List.flatMap_eq_nil_iff.mpr fun p hp => ?_
        rw [hempty p hp, spaced_nil]
      rw [Option.none_or, hfilter, if_pos rfl, hbehind, List.append_nil]
      by_cases hnil : piece line start = []
      · rw [if_pos hnil, hnil]
        rfl
      · rw [if_neg hnil, if_pos ((Bool.not_eq_false _).mp fun hfree => hnil (hline.mpr hfree)), spaced_last]
    | some number =>
      obtain ⟨hle, other, hmem, hother⟩ := exists_of_lastFilledFrom? hlast
      have hne : ((lines.zipIdx (start + 1)).map fun p => piece p.1 p.2).filter (!·.isEmpty) ≠ [] := by
        refine List.ne_nil_of_mem (List.mem_filter.mpr ⟨List.mem_map_of_mem hmem, ?_⟩)
        rw [Bool.not_eq_true', List.isEmpty_eq_false_iff]
        intro hnil
        rw [(hrest _ hmem).mp hnil] at hother
        cases hother
      rw [Option.some_or, if_neg hne, ← hlast, ih hrest]
      by_cases hnil : piece line start = []
      · rw [if_pos hnil, hnil, spaced_nil, List.nil_append]
      · -- another filled line follows, so a space does
        have hnumber : lastFilledFrom? (start + 1) lines ≠ some start := by
          rw [hlast]
          intro heq
          have := Option.some.inj heq
          omega
        rw [if_neg hnil, spaced_of_ne hnumber hnil]

/-! ## §5. Cleaned texts -/

theorem map_trimBroken_behind {count start : Nat} (hstart : 0 < start) {lines : List (List Char)}
    (hcount : start + lines.length = count) :
    (lines.zipIdx start).map (fun p => trimBroken (p.2 == 0) (p.2 + 1 == count) (untab p.1))
      = trimmedBehind (lines.map untab) := by
  induction lines generalizing start with
  | nil => rfl
  | cons line lines ih =>
    have hfirst : (start == 0) = false := by
      rw [beq_eq_false_iff_ne]
      omega
    rw [List.length_cons] at hcount
    rw [List.zipIdx_cons, List.map_cons, ih (Nat.succ_pos start) (by omega), List.map_cons]
    dsimp only
    rw [hfirst]
    cases lines with
    | nil =>
      have hlast : (start + 1 == count) = true := beq_iff_eq.mpr hcount
      rw [hlast]
      rfl
    | cons next lines =>
      have hlast : (start + 1 == count) = false := by
        rw [beq_eq_false_iff_ne]
        rw [List.length_cons] at hcount
        omega
      rw [hlast]
      rfl

/-- The lines are trimmed at the ends that they are broken at. -/
theorem map_trimBroken (lines : List (List Char)) :
    lines.zipIdx.map (fun p => trimBroken (p.2 == 0) (p.2 + 1 == lines.length) (untab p.1))
      = trimmed (lines.map untab) := by
  cases lines with
  | nil => rfl
  | cons line lines =>
    cases lines with
    | nil => rfl
    | cons next lines =>
      rw [List.zipIdx_cons, List.map_cons, map_trimBroken_behind (Nat.succ_pos 0) (by simp; omega)]
      rfl

/-- Lines that a break stands between are joined. -/
theorem flatMap_joinedLine {lines : List (List Char)} (hlines : 1 < lines.length) :
    lines.zipIdx.flatMap (fun (line, number) => joinedLine lines.length (lastFilled? lines) line number)
      = joined lines := by
  unfold joined
  rw [← map_trimBroken]
  refine @flatMap_spaced (fun line number => trimBroken (number == 0) (number + 1 == lines.length) (untab line))
    0 lines fun p _ => trimBroken_eq_nil_iff ?_
  -- no line is the first and the last one
  rw [Bool.and_eq_false_iff, beq_eq_false_iff_ne, beq_eq_false_iff_ne]
  omega

/-- The characters of a blank run break no line. -/
theorem IsBlankRun.isLine {cs : List Char} (h : IsBlankRun cs) : IsLine cs := by
  constructor
  · intro hmem
    rcases h.2 _ hmem with hc | hc <;> cases hc
  · intro hmem
    rcases h.2 _ hmem with hc | hc <;> cases hc

theorem splitLines_of_isLine {cs : List Char} (h : IsLine cs) : splitLines cs = [cs] :=
  (Lined.last h).eq_splitLines.symm

theorem not_lined_nil {cs : List Char} : ¬ Lined cs [] := by
  intro h
  cases h

/-- A text of one line is a line. -/
theorem Lined.isLine {cs line : List Char} (h : Lined cs [line]) : IsLine cs := by
  cases h with
  | last hline => exact hline
  | both _ hrest => exact absurd hrest not_lined_nil
  | feed _ hrest => exact absurd hrest not_lined_nil
  | back _ hrest _ => exact absurd hrest not_lined_nil

/-- A line that is not broken has spaces for its tabs. -/
theorem joined_of_isLine {cs : List Char} (h : IsLine cs) : joined (splitLines cs) = untab cs := by
  rw [splitLines_of_isLine h]
  unfold joined
  rw [List.map_singleton, trimmed, intercalate_filter_cons]
  split
  · next hnil => exact hnil.symm
  · exact if_pos rfl

/-- A space follows a line that is not broken exactly if it is a blank run. -/
theorem toList_clean_of_isLine {text : String} (h : IsLine text.toList) :
    (IsBlankRun text.toList → (clean text).toList = untab text.toList ++ [' ']) ∧
      (¬ IsBlankRun text.toList → (clean text).toList = untab text.toList) := by
  have hclean : (clean text).toList = spaced (lastFilledFrom? 0 [text.toList]) 0 (untab text.toList) := by
    unfold clean
    rw [splitLines_of_isLine h, String.toList_ofList]
    exact List.append_nil _
  rw [hclean, lastFilledFrom?_cons]
  unfold IsBlankRun
  rw [← isFilled_eq_false_iff]
  constructor
  · rintro ⟨hne, hfree⟩
    rw [hfree]
    exact spaced_of_ne (by decide) fun hnil => hne (List.map_eq_nil_iff.mp hnil)
  · intro hother
    by_cases hnil : text.toList = []
    · rw [hnil]
      rfl
    · have hfilled : isFilled text.toList = true := (Bool.not_eq_false _).mp fun hfree => hother ⟨hnil, hfree⟩
      rw [hfilled]
      exact spaced_last 0 _

/-- A text that a break stands in is joined as it should be. -/
theorem toList_clean_of_not_isLine {text : String} (h : ¬ IsLine text.toList) :
    (clean text).toList = joined (splitLines text.toList) := by
  have hlines : 1 < (splitLines text.toList).length := by
    have hlined := lined_splitLines text.toList
    match hsplit : splitLines text.toList with
    | [] => exact absurd (hsplit ▸ hlined) not_lined_nil
    | [line] => exact absurd (Lined.isLine (hsplit ▸ hlined)) h
    | line :: next :: lines => exact Nat.one_lt_succ_succ _
  unfold clean
  rw [String.toList_ofList]
  exact flatMap_joinedLine hlines

/-- A text can be cut into lines in one way, and a text without breaks is joined to itself with spaces
for tabs.  The cleaned text is what the lines are joined to, unless the text is a blank run: then
a space follows it. -/
theorem clean_exact (text : String) :
    ∃ lines, (∀ others, Lined text.toList others ↔ others = lines) ∧
      (IsLine text.toList → joined lines = untab text.toList) ∧
      ((clean text).toList = joined lines ↔ ¬ IsBlankRun text.toList) ∧
      (IsBlankRun text.toList → (clean text).toList = joined lines ++ [' ']) := by
  refine ⟨splitLines text.toList, fun others => lined_iff, joined_of_isLine, ?_, ?_⟩
  · constructor
    · intro hjoined hblank
      rw [joined_of_isLine hblank.isLine, (toList_clean_of_isLine hblank.isLine).1 hblank] at hjoined
      have := congrArg List.length hjoined
      simp at this
    · intro hother
      by_cases hline : IsLine text.toList
      · rw [joined_of_isLine hline]
        exact (toList_clean_of_isLine hline).2 hother
      · exact toList_clean_of_not_isLine hline
  · intro hblank
    rw [joined_of_isLine hblank.isLine]
    exact (toList_clean_of_isLine hblank.isLine).1 hblank

/-- A space alone should be left as it is, and becomes two. -/
theorem clean_space_doubled :
    Lined " ".toList [[' ']] ∧ joined [[' ']] = [' '] ∧ (clean " ").toList = [' ', ' '] :=
  ⟨.last ⟨by decide, by decide⟩, rfl, rfl⟩

example : (clean "a\tb \r\n\t \r c ").toList = "a b c ".toList := by decide +kernel

end LivePreview.Lowering.JsxText
