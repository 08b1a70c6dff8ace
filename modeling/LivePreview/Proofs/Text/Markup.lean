/-
  LivePreview.Proofs.Text.Markup
  ──────────────────────────────
  **How a page is read, and what cannot break it open.**

  A reader takes a page one code point at a time (`Reader.read`).  It stands between
  tags, inside a tag, inside the value of an attribute, or inside a script, and it keeps
  the tags that it comes to, without the values in them.  A script ends at `</script`, in
  capital or small letters, wherever that stands; behind `<!--` the end of a script may
  be anywhere, and the reader gives up.

  Main statements:

    • `reads_text` and `reads_value` — an escaped text shows no tag between tags, and
      does not end the value of an attribute,
    • `reads_script` — a text that is `Inert` does not end a script, and is read to its
      end,
    • `exists_unescape_escape` — the character references of an escaped text are decoded
      to the text.
-/
import Mathlib.Data.List.Infix
import LivePreview.Proofs.Text.Occurrence
import LivePreview.Text.CharacterReference
import LivePreview.Text.Markup

namespace LivePreview.Text.Markup

open LivePreview.Text.CharacterReference (ofName read? unescape unescapeFrom)

/-! ## §1. Marks of scripts -/

/-- The code point with a small letter in place of a capital one. -/
def folded : CodePoint → CodePoint
  | .char c => .char c.toLower
  | point => point

/-- The start of the tag that ends a script. -/
def scriptEnd : List CodePoint :=
  ("</script" : Text).points

/-- The start of a comment. -/
def commentStart : List CodePoint :=
  ("<!--" : Text).points

/-- What ends a script, and what keeps a reader from looking for its end. -/
def scriptMarks : List (List CodePoint) :=
  [scriptEnd, commentStart]

/-- The text holds no mark of scripts, in whatever letters. -/
def Inert (content : Text) : Prop :=
  ∀ mark ∈ scriptMarks, ¬ mark <:+: content.points.map folded

instance (content : Text) : Decidable (Inert content) :=
  inferInstanceAs (Decidable (∀ mark ∈ scriptMarks, ¬ mark <:+: content.points.map folded))

theorem head?_mark {mark : List CodePoint} (h : mark ∈ scriptMarks) :
    mark.head? = some (.char '<') := by
  have hall : ∀ mark ∈ scriptMarks, mark.head? = some (.char '<') := by decide
  exact hall mark h

theorem mark_ne_nil {mark : List CodePoint} (h : mark ∈ scriptMarks) : mark ≠ [] := by
  rintro rfl
  cases head?_mark h

theorem toNat_toLower (c : Char) :
    c.toLower.toNat = if 65 ≤ c.toNat ∧ c.toNat ≤ 90 then c.toNat + 32 else c.toNat := by
  have hval : (65 ≤ c.toNat ∧ c.toNat ≤ 90) ↔ (c.val ≥ 'A'.val ∧ c.val ≤ 'Z'.val) := by
    rw [ge_iff_le, UInt32.le_iff_toNat_le, UInt32.le_iff_toNat_le]
    exact Iff.rfl
  unfold Char.toLower
  split
  · next h =>
    rw [if_pos (hval.mpr h)]
    show (c.val + 32).toNat = _
    rw [UInt32.toNat_add, Nat.mod_eq_of_lt]
    · rfl
    · have := hval.mpr h
      show c.toNat + 32 < _
      omega
  · next h => rw [if_neg (mt hval.mp h)]

theorem folded_eq_lt_iff {point : CodePoint} : folded point = .char '<' ↔ point = .char '<' := by
  cases point with
  | half offset => simp [folded]
  | char c =>
    simp only [folded, CodePoint.char.injEq, ← Char.toNat_inj, toNat_toLower]
    show _ = 60 ↔ _ = 60
    split <;> omega

theorem inert_of_not_mem {content : Text} (h : .char '<' ∉ content.points) : Inert content := by
  intro mark hmark hoccurs
  have hmem := hoccurs.subset (List.mem_of_head? (head?_mark hmark))
  obtain ⟨point, hpoint, heq⟩ := List.mem_map.mp hmem
  exact h (folded_eq_lt_iff.mp heq ▸ hpoint)

/-- A text without less-than signs makes no difference in front of another one. -/
theorem inert_append_iff {a : Text} (ha : .char '<' ∉ a.points) (b : Text) :
    Inert (a ++ b) ↔ Inert b := by
  unfold Inert
  refine forall₂_congr fun mark hmark => not_congr ?_
  show mark <:+: (a.points ++ b.points).map folded ↔ _
  rw [List.map_append, infix_append_of_head_not_mem]
  intro point hpoint hmem
  rw [head?_mark hmark, Option.some.injEq] at hpoint
  obtain ⟨c, hc, heq⟩ := List.mem_map.mp hmem
  rw [← hpoint, folded_eq_lt_iff] at heq
  exact ha (heq ▸ hc)

/-- A text between fences is as inert as what stands in front of it, in it and behind it. -/
theorem inert_fenced_iff {first last : CodePoint} (hfirst : ∀ mark ∈ scriptMarks, folded first ∉ mark)
    (hlast : ∀ mark ∈ scriptMarks, folded last ∉ mark) (a inner b : List CodePoint) :
    Inert ⟨a ++ first :: (inner ++ [last]) ++ b⟩ ↔ Inert ⟨a⟩ ∧ Inert ⟨inner⟩ ∧ Inert ⟨b⟩ := by
  unfold Inert
  rw [← forall₂_and, ← forall₂_and]
  refine forall₂_congr fun mark hmark => ?_
  simp only [List.map_append, List.map_cons, List.map_nil]
  rw [infix_fenced_iff (hfirst mark hmark) (hlast mark hmark), not_or, not_or]

/-- Replacing an inert pattern keeps a text inert if and only if the replacement is inert, or is never
put in. -/
theorem inert_replaceAll_iff {pattern new : Text}
    (hpattern : ∀ mark ∈ scriptMarks, Fences mark (pattern.points.map folded))
    (hnew : ∀ mark ∈ scriptMarks, Fences mark (new.points.map folded)) (hinert : Inert pattern)
    (text : Text) :
    Inert (replaceAll pattern new text)
      ↔ Inert text ∧ (0 < occurrences pattern text → Inert new) := by
  have hmark : ∀ mark ∈ scriptMarks, _ := fun mark hmark =>
    infix_replaceAll_iff (mark_ne_nil hmark) (hpattern mark hmark) (hnew mark hmark)
      (hinert mark hmark) text
  constructor
  · intro h
    refine ⟨fun mark hm hin => h mark hm ((hmark mark hm).mpr (.inl hin)),
      fun hpos mark hm hin => h mark hm ((hmark mark hm).mpr (.inr ⟨hpos, hin⟩))⟩
  · rintro ⟨htext, hput⟩ mark hm hin
    rcases (hmark mark hm).mp hin with hin | ⟨hpos, hin⟩
    · exact htext mark hm hin
    · exact hput hpos mark hm hin

/-! ## §2. Escaped texts -/

/-- The characters that open a tag, close it, or end the value of an attribute. -/
def delimiters : List Char :=
  ['<', '>', '"']

/-- The characters that are escaped. -/
def escaped : List Char :=
  ['&', '<', '>', '"', '\'']

theorem escapeChar_eq_self {c : Char} (h : c ∉ escaped) : escapeChar c = [c] := by
  simp only [escaped, List.mem_cons, List.not_mem_nil, or_false, not_or] at h
  simp [escapeChar, h]

theorem not_mem_delimiters_of_mem_escapeChar {c d : Char} (h : c ∈ escapeChar d) :
    c ∉ delimiters := by
  by_cases hd : d ∈ escaped
  · have hall : (escaped.flatMap escapeChar).all (!delimiters.contains ·) = true := by decide
    have hlacks := List.all_eq_true.mp hall c (List.mem_flatMap.mpr ⟨d, hd, h⟩)
    simpa using hlacks
  · have hsub : delimiters ⊆ escaped := by simp [delimiters, escaped]
    rw [escapeChar_eq_self hd, List.mem_singleton] at h
    rw [h]
    exact fun hmem => hd (hsub hmem)

/-- An escaped text holds no delimiter. -/
theorem not_mem_escape {c : Char} (hc : c ∈ delimiters) (text : Text) :
    .char c ∉ (escape text).points := by
  unfold escape
  rw [List.mem_flatMap]
  rintro ⟨point, -, hmem⟩
  cases point with
  | half offset => simp [escapePoint] at hmem
  | char d =>
    obtain ⟨e, he, heq⟩ := List.mem_map.mp hmem
    cases heq
    exact not_mem_delimiters_of_mem_escapeChar he hc

/-- What the names that escaping writes stand for. -/
theorem ofName_escaped : ofName ['a', 'm', 'p', ';'] = ['&'] ∧ ofName ['l', 't', ';'] = ['<']
    ∧ ofName ['g', 't', ';'] = ['>'] ∧ ofName ['q', 'u', 'o', 't', ';'] = ['"'] := by
  decide +kernel

/-- The reference that is written for an escaped character is read as that character. -/
theorem read?_escapeChar {c : Char} (h : c ∈ escaped) (cs : List Char) :
    ∃ tail, escapeChar c = '&' :: tail ∧ read? (tail ++ cs) = some (.ok ([c], tail.length)) := by
  -- a named reference ends at its semicolon
  have hnamed : ∀ {tail : List Char}, ofName tail = [c] →
      read? (tail ++ cs) = some (.ok (ofName tail, tail.length)) →
      read? (tail ++ cs) = some (.ok ([c], tail.length)) := fun hname hread => hname ▸ hread
  obtain ⟨hamp, hlt, hgt, hquot⟩ := ofName_escaped
  simp only [escaped, List.mem_cons, List.not_mem_nil, or_false] at h
  rcases h with rfl | rfl | rfl | rfl | rfl
  · exact ⟨['a', 'm', 'p', ';'], rfl, hnamed hamp rfl⟩
  · exact ⟨['l', 't', ';'], rfl, hnamed hlt rfl⟩
  · exact ⟨['g', 't', ';'], rfl, hnamed hgt rfl⟩
  · exact ⟨['q', 'u', 'o', 't', ';'], rfl, hnamed hquot rfl⟩
  · exact ⟨['#', 'x', '2', '7', ';'], rfl, rfl⟩

theorem unescapeFrom_length_append (xs cs : List Char) :
    unescapeFrom xs.length (xs ++ cs) = unescapeFrom 0 cs := by
  induction xs with
  | nil => rfl
  | cons x xs ih => exact ih

/-- Escaped characters are decoded one by one. -/
theorem unescapeFrom_flatMap_escapeChar (cs : List Char) :
    unescapeFrom 0 (cs.flatMap escapeChar) = .ok cs := by
  induction cs with
  | nil => rfl
  | cons c cs ih =>
    rw [List.flatMap_cons]
    by_cases hc : c ∈ escaped
    · obtain ⟨tail, hwritten, hread⟩ := read?_escapeChar hc (cs.flatMap escapeChar)
      rw [hwritten, List.cons_append, unescapeFrom, if_pos (beq_self_eq_true _), hread]
      dsimp only
      rw [unescapeFrom_length_append, ih]
      rfl
    · have hamp : ¬ (c == '&') = true := by
        rw [beq_iff_eq]
        rintro rfl
        exact hc List.mem_cons_self
      rw [escapeChar_eq_self hc, List.singleton_append, unescapeFrom, if_neg hamp, ih]
      rfl

/-- **What is escaped is decoded again**, with the references of the standard. -/
theorem exists_unescape_escape (s : String) :
    ∃ written : String, escape s = written ∧ unescape written = .ok s := by
  refine ⟨String.ofList (s.toList.flatMap escapeChar), ?_, ?_⟩
  · apply Text.ext
    rw [points_ofString rfl, List.map_flatMap]
    show (s.toList.map CodePoint.char).flatMap escapePoint = _
    rw [List.flatMap_map]
    rfl
  · unfold unescape
    rw [String.toList_ofList, unescapeFrom_flatMap_escapeChar]
    exact congrArg Except.ok String.ofList_toList

/-! ## §3. Reading a page -/

/-- Where a reader stands. -/
inductive Place where
  /-- Between tags. -/
  | text
  /-- Inside a tag, behind what it is written with. -/
  | tag (written : List CodePoint)
  /-- Inside the value of an attribute of a tag. -/
  | value (written : List CodePoint)
  /-- Inside a script, behind what may be the start of a mark. -/
  | script (seen : List CodePoint)
  /-- Behind the start of a comment in a script. -/
  | lost
  deriving DecidableEq

/-- A reader, and the tags that it has come to. -/
structure Reader where
  place : Place := .text
  tags : List Text := []
  deriving DecidableEq

/-- Where a reader stands behind a tag. -/
def placeBehind (written : List CodePoint) : Place :=
  if (written.map folded).takeWhile (· ≠ .char ' ') = ("script" : Text).points then .script []
  else .text

/-- Where a reader stands in a script behind what may be a mark, or the start of one. -/
def placeInScript (seen : List CodePoint) : Place :=
  if seen = scriptEnd then .tag (seen.drop 1)
  else if seen = commentStart then .lost
  else if scriptMarks.any seen.isPrefixOf then .script seen
  else .script (if seen.getLast? = some (.char '<') then [.char '<'] else [])

/-- Read one code point. -/
def Reader.read (reader : Reader) (point : CodePoint) : Reader :=
  match reader.place with
  | .text => if point = .char '<' then { reader with place := .tag [] } else reader
  | .tag written =>
    if point = .char '"' then { reader with place := .value written }
    else if point = .char '>' then ⟨placeBehind written, reader.tags ++ [⟨written⟩]⟩
    else { reader with place := .tag (written ++ [point]) }
  | .value written => if point = .char '"' then { reader with place := .tag written } else reader
  | .script seen => { reader with place := placeInScript (seen ++ [folded point]) }
  | .lost => reader

/-- Read a text. -/
def Reader.reads (reader : Reader) (text : Text) : Reader :=
  text.points.foldl read reader

theorem reads_append (reader : Reader) (a b : Text) :
    reader.reads (a ++ b) = (reader.reads a).reads b :=
  List.foldl_append

/-- A reader stays where it is if no code point moves it. -/
theorem reads_of_forall_read {reader : Reader} {text : Text}
    (h : ∀ point ∈ text.points, reader.read point = reader) : reader.reads text = reader := by
  unfold Reader.reads
  revert h
  induction text.points with
  | nil => exact fun _ => rfl
  | cons point points ih =>
    intro h
    rw [List.forall_mem_cons] at h
    rw [List.foldl_cons, h.1, ih h.2]

/-- A text without less-than signs shows no tags. -/
theorem reads_text {text : Text} (h : .char '<' ∉ text.points) (tags : List Text) :
    Reader.reads ⟨.text, tags⟩ text = ⟨.text, tags⟩ :=
  reads_of_forall_read fun _ hpoint => if_neg (ne_of_mem_of_not_mem hpoint h)

/-- A text without double quotes does not end the value of an attribute. -/
theorem reads_value {text : Text} (h : .char '"' ∉ text.points) (written : List CodePoint)
    (tags : List Text) : Reader.reads ⟨.value written, tags⟩ text = ⟨.value written, tags⟩ :=
  reads_of_forall_read fun _ hpoint => if_neg (ne_of_mem_of_not_mem hpoint h)

/-- A reader stays in a script if it sees no whole mark. -/
theorem placeInScript_eq {seen : List CodePoint} (h : seen ∉ scriptMarks) :
    ∃ kept, placeInScript seen = .script kept ∧ kept <:+ seen := by
  simp only [scriptMarks, List.mem_cons, List.not_mem_nil, or_false, not_or] at h
  unfold placeInScript
  rw [if_neg h.1, if_neg h.2]
  split
  · exact ⟨seen, rfl, List.suffix_refl seen⟩
  · split
    · next hlast => exact ⟨_, rfl, List.singleton_suffix_iff_getLast?_eq_some.mpr hlast⟩
    · exact ⟨[], rfl, List.nil_suffix⟩

/-- A text in which no mark ends keeps a reader inside a script. -/
theorem reads_within_script {points seen : List CodePoint}
    (h : ∀ mark ∈ scriptMarks, ¬ mark <:+: seen ++ points.map folded) (tags : List Text) :
    ∃ kept, points.foldl Reader.read ⟨.script seen, tags⟩ = ⟨.script kept, tags⟩ := by
  induction points generalizing seen with
  | nil => exact ⟨seen, rfl⟩
  | cons point points ih =>
    rw [List.map_cons, List.append_cons] at h
    -- what has been seen so far is no mark, and the reader keeps an end of it
    have hseen : seen ++ [folded point] ∉ scriptMarks := fun hmark =>
      h _ hmark (List.prefix_append _ _).isInfix
    obtain ⟨kept, hplace, hsuffix⟩ := placeInScript_eq hseen
    have hread : Reader.read ⟨.script seen, tags⟩ point = ⟨.script kept, tags⟩ := by
      show (⟨placeInScript _, tags⟩ : Reader) = _
      rw [hplace]
    rw [List.foldl_cons, hread]
    refine ih fun mark hmark hoccurs => h mark hmark (hoccurs.trans ?_)
    obtain ⟨front, hfront⟩ := hsuffix
    exact ⟨front, [], by rw [← hfront, List.append_nil, List.append_assoc]⟩

/-- An inert text leaves a reader in the script, and at the end of the line there is nothing left
of what may have been the start of a mark. -/
theorem reads_script {content : Text} (h : Inert content) (tags : List Text) :
    Reader.reads ⟨.script [], tags⟩ (content ++ ("\n" : Text)) = ⟨.script [], tags⟩ := by
  have hinert : ∀ mark ∈ scriptMarks, ¬ mark <:+: [] ++ content.points.map folded := h
  obtain ⟨kept, hkept⟩ := reads_within_script hinert tags
  have hline : ∀ mark ∈ scriptMarks, ¬ kept ++ [.char '\n'] <+: mark := by
    intro mark hmark hbegins
    have hall : ∀ mark ∈ scriptMarks, .char '\n' ∉ mark := by decide
    exact hall mark hmark (hbegins.subset (List.mem_append_right _ (List.mem_singleton_self _)))
  have hplace : placeInScript (kept ++ [.char '\n']) = .script [] := by
    have hfresh : scriptMarks.any (kept ++ [CodePoint.char '\n']).isPrefixOf = false := by
      rw [List.any_eq_false]
      exact fun mark hmark hbegins => hline mark hmark (List.isPrefixOf_iff_prefix.mp hbegins)
    have hnew : ∀ mark ∈ scriptMarks, kept ++ [.char '\n'] ≠ mark := by
      rintro mark hmark rfl
      exact hline _ hmark (List.prefix_refl _)
    unfold placeInScript
    rw [if_neg (hnew scriptEnd (by decide)), if_neg (hnew commentStart (by decide)), hfresh]
    simp
  rw [reads_append]
  show List.foldl Reader.read (content.points.foldl Reader.read _) [.char '\n'] = _
  rw [hkept]
  show (⟨placeInScript _, tags⟩ : Reader) = _
  rw [show folded (.char '\n') = .char '\n' from rfl, hplace]

end LivePreview.Text.Markup
