/-
  LivePreview.Proofs.Lowering.Code
  ────────────────────────────────
  **Marked text is read back, and literals land where their sites say.**

  Code is *clean* if its characters are no NULs and its placeholders have specifiers.
  The marked text of clean code reads back piece by piece (`scan_marked`).  Whatever
  marks are filled in, each literal lands at its site, the sites follow one another,
  and the characters outside of them are those of the marks (`Placed`, `placed_fillFrom`):

      finished code   c c c " a . c s s " c c " b " c
      sites                 [----------)      [---)
-/
import LivePreview.Lowering.Code
import LivePreview.Proofs.Lowering.NulFree
import LivePreview.Proofs.Result

namespace LivePreview.Lowering

open LivePreview.Number (decimalDigit? ofDigits)

/-! ## §1. Numbers between NUL characters -/

theorem decimalDigit?_digitChar {d : Nat} (hd : d < 10) : decimalDigit? d.digitChar = some d := by
  have hall : ∀ d < 10, decimalDigit? (Nat.digitChar d) = some d := by decide
  exact hall d hd

theorem decimalDigit?_nul : decimalDigit? '\x00' = none := by decide

/-- The digits of a number are read back as its digits, and nothing but them. -/
theorem ofDigits_toDigits (n : Nat) :
    ofDigits 10 ((Nat.toDigits 10 n).filterMap decimalDigit?) = n
      ∧ ∀ c ∈ Nat.toDigits 10 n, (decimalDigit? c).isSome = true := by
  induction n using Nat.strongRecOn with
  | _ n ih =>
    -- by strong induction, since the digits in front are those of `n / 10`
    by_cases hlt : n < 10
    · rw [Nat.toDigits_of_lt_base hlt, List.filterMap_cons, decimalDigit?_digitChar hlt]
      refine ⟨by simp [ofDigits], fun c hc => ?_⟩
      rw [List.mem_singleton.mp hc, decimalDigit?_digitChar hlt, Option.isSome_some]
    · obtain ⟨hread, hdigits⟩ := ih (n / 10) (by omega)
      have hmod : n % 10 < 10 := Nat.mod_lt n (by omega)
      rw [Nat.toDigits_of_base_le (by omega) (by omega)]
      refine ⟨?_, fun c hc => ?_⟩
      · have hlast : [(n % 10).digitChar].filterMap decimalDigit? = [n % 10] := by
          rw [List.filterMap_cons, decimalDigit?_digitChar hmod, List.filterMap_nil]
        unfold ofDigits at hread ⊢
        rw [List.filterMap_append, hlast, List.foldl_append, hread, List.foldl_cons,
          List.foldl_nil]
        omega
      · rcases List.mem_append.mp hc with hc | hc
        · exact hdigits c hc
        · rw [List.mem_singleton.mp hc, decimalDigit?_digitChar hmod, Option.isSome_some]

/-! ## §2. Reading clean code back -/

/-- The piece as it stands in marked text that has been read. -/
def Piece.mark : Piece → Code.Mark
  | .char c => .char c
  | .site number => .site number

/-- The character that a mark is, if it is one. -/
def Code.Mark.char? : Code.Mark → Option Char
  | .char c => some c
  | _ => none

/-- The piece is no NUL, and if it is a placeholder, it belongs to one of `count` specifiers. -/
def Piece.IsClean (count : Nat) : Piece → Prop
  | .char c => c ≠ '\x00'
  | .site number => number < count

namespace Code

/-- Every piece is clean. -/
def IsClean (count : Nat) (code : Code) : Prop :=
  ∀ piece ∈ code, piece.IsClean count

/-- The characters of the code, without its placeholders. -/
def plain (code : Code) : List Char :=
  code.filterMap fun
    | .char c => some c
    | .site _ => none

theorem scanFrom_length_append (limit : Nat) (xs ys : List Char) :
    scanFrom limit xs.length (xs ++ ys) = scanFrom limit 0 ys := by
  induction xs with
  | nil => rfl
  | cons x xs ih => exact ih

theorem placeholder?_of_ne {limit : Nat} {c : Char} (hc : c ≠ '\x00') (cs : List Char) :
    placeholder? limit (c :: cs) = none := by
  unfold placeholder?
  split
  · next heq => exact absurd (List.cons.inj heq).1 hc
  · rfl

theorem placeholder?_number {limit number : Nat}
    (hlimit : (Nat.toDigits 10 number).length ≤ limit) (cs : List Char) :
    placeholder? limit ('\x00' :: (Nat.toDigits 10 number ++ '\x00' :: cs))
      = some (.site number, (Nat.toDigits 10 number).length + 1) := by
  obtain ⟨hread, hdigits⟩ := ofDigits_toDigits number
  have htake : (Nat.toDigits 10 number ++ '\x00' :: cs).takeWhile
      (fun c => (decimalDigit? c).isSome) = Nat.toDigits 10 number := by
    rw [List.takeWhile_append_of_pos hdigits, List.takeWhile_cons_of_neg (by simp [decimalDigit?_nul]),
      List.append_nil]
  have hnul : ∀ rest : List Char, placeholder? limit ('\x00' :: rest)
      = if !(rest.takeWhile fun c => (decimalDigit? c).isSome).isEmpty
          && (rest.drop (rest.takeWhile fun c => (decimalDigit? c).isSome).length).head? == some '\x00'
        then some (markOf limit (rest.takeWhile fun c => (decimalDigit? c).isSome),
          (rest.takeWhile fun c => (decimalDigit? c).isSome).length + 1)
        else none := fun _ => rfl
  rw [hnul, htake, List.drop_left, if_pos (by simp [Nat.toDigits_ne_nil]), markOf, if_pos hlimit,
    hread]

theorem marked_append (code other : Code) : marked (code ++ other) = marked code ++ marked other :=
  List.flatMap_append

/-- The marked text of clean code reads back piece by piece, whatever text stands behind it. -/
theorem scan_marked_append {limit count : Nat} {code : Code} (hclean : code.IsClean count)
    (hlimit : ∀ number < count, (Nat.toDigits 10 number).length ≤ limit) (cs : List Char) :
    scan limit (marked code ++ cs) = code.map Piece.mark ++ scan limit cs := by
  unfold scan
  induction code with
  | nil => rfl
  | cons piece code ih =>
    obtain ⟨hpiece, hrest⟩ := List.forall_mem_cons.mp hclean
    have ih := ih hrest
    cases piece with
    | char c =>
      show scanFrom limit 0 (c :: (marked code ++ cs)) = .char c :: (code.map Piece.mark ++ _)
      rw [scanFrom, placeholder?_of_ne hpiece, ih]
    | site number =>
      -- the scan takes the number for a placeholder and skips its digits and the second NUL
      have hmarked : marked (.site number :: code) ++ cs
          = '\x00' :: (Nat.toDigits 10 number ++ '\x00' :: (marked code ++ cs)) := by
        simp [marked, markPiece]
      have hskip : Nat.toDigits 10 number ++ '\x00' :: (marked code ++ cs)
          = (Nat.toDigits 10 number ++ ['\x00']) ++ (marked code ++ cs) := by simp
      have hlength : (Nat.toDigits 10 number).length + 1
          = (Nat.toDigits 10 number ++ ['\x00']).length := by simp
      rw [hmarked, scanFrom, placeholder?_number (hlimit number hpiece)]
      dsimp only
      rw [hskip, hlength, scanFrom_length_append, ih]
      rfl

/-- The marked text of clean code reads back piece by piece. -/
theorem scan_marked {limit count : Nat} {code : Code} (hclean : code.IsClean count)
    (hlimit : ∀ number < count, (Nat.toDigits 10 number).length ≤ limit) :
    scan limit (marked code) = code.map Piece.mark := by
  have hnil : scan limit [] = [] := rfl
  have hscan := scan_marked_append hclean hlimit []
  rwa [List.append_nil, hnil, List.append_nil] at hscan

theorem length_toDigits_mono {m n : Nat} (h : m ≤ n) :
    (Nat.toDigits 10 m).length ≤ (Nat.toDigits 10 n).length := by
  have hpos : 0 < (Nat.toDigits 10 n).length := Nat.length_toDigits_pos
  rw [Nat.length_toDigits_le_iff (by omega) hpos]
  exact Nat.lt_of_le_of_lt h ((Nat.length_toDigits_le_iff (by omega) hpos).mp (Nat.le_refl _))

/-- What the marks of clean code leave outside of the literals are its characters. -/
theorem filterMap_char?_mark (code : Code) :
    (code.map Piece.mark).filterMap Mark.char? = code.plain := by
  unfold plain
  rw [List.filterMap_map]
  congr 1
  funext piece
  cases piece <;> rfl

end Code

/-! ## §3. Literals at their sites -/

/-- Behind `position` characters stand the given ones; each site lies there with its literal, one
behind the other, and outside of the sites stand the plain characters. -/
inductive Placed : Nat → List Char → List Site → List Char → Prop where
  | nil (position : Nat) : Placed position [] [] []
  | char (c : Char) {position : Nat} {cs : List Char} {sites : List Site} {plain : List Char} :
    Placed (position + 1) cs sites plain → Placed position (c :: cs) sites (c :: plain)
  | site (specifier : Text) {position : Nat} {cs : List Char} {sites : List Site}
    {plain : List Char} :
    Placed (position + (Json.literal specifier).toList.length) cs sites plain →
      Placed position ((Json.literal specifier).toList ++ cs)
        (⟨position, position + (Json.literal specifier).toList.length, specifier⟩ :: sites) plain

/-- A character is filled in as it is. -/
theorem Code.fillFrom_char_eq_ok {specifiers : List Text} {position : Nat} {c : Char}
    {marks : List Code.Mark} {cs : List Char} {sites : List Site}
    (hok : Code.fillFrom specifiers position (.char c :: marks) = .ok (cs, sites)) :
    ∃ rest, Code.fillFrom specifiers (position + 1) marks = .ok (rest, sites) ∧ cs = c :: rest := by
  unfold Code.fillFrom at hok
  obtain ⟨⟨rest, others⟩, hrest, hdone⟩ := Result.bind_eq_ok_iff.mp hok
  cases hdone
  exact ⟨rest, hrest, rfl⟩

/-- A placeholder is filled in with the literal of its specifier, and what follows stands behind the
literal. -/
theorem Code.fillFrom_site_eq_ok {specifiers : List Text} {position number : Nat}
    {marks : List Code.Mark} {cs : List Char} {sites : List Site}
    (hok : Code.fillFrom specifiers position (.site number :: marks) = .ok (cs, sites)) :
    ∃ specifier rest others, specifiers[number]? = some specifier ∧
      Code.fillFrom specifiers (position + (Json.literal specifier).toList.length) marks
        = .ok (rest, others) ∧
      cs = (Json.literal specifier).toList ++ rest ∧
      sites = ⟨position, position + (Json.literal specifier).toList.length, specifier⟩ :: others := by
  unfold Code.fillFrom at hok
  cases hspecifier : specifiers[number]? with
  | none =>
    rw [hspecifier] at hok
    cases hok
  | some specifier =>
    rw [hspecifier] at hok
    obtain ⟨⟨rest, others⟩, hrest, hdone⟩ := Result.bind_eq_ok_iff.mp hok
    cases hdone
    exact ⟨specifier, rest, others, rfl, hrest, rfl, rfl⟩

/-- The sites that are filled in hold specifiers that were given, at their places. -/
theorem placed_fillFrom {specifiers : List Text} {position : Nat} {marks : List Code.Mark}
    {cs : List Char} {sites : List Site}
    (hok : Code.fillFrom specifiers position marks = .ok (cs, sites)) :
    Placed position cs sites (marks.filterMap Code.Mark.char?)
      ∧ ∀ site ∈ sites, site.specifier ∈ specifiers := by
  induction marks generalizing position cs sites with
  | nil =>
    cases hok
    exact ⟨.nil position, by simp⟩
  | cons mark marks ih =>
    cases mark with
    | char c =>
      obtain ⟨rest, hrest, rfl⟩ := Code.fillFrom_char_eq_ok hok
      obtain ⟨hplaced, hmem⟩ := ih hrest
      exact ⟨.char c hplaced, hmem⟩
    | overlong digits => cases hok
    | site number =>
      obtain ⟨specifier, rest, others, hspecifier, hrest, rfl, rfl⟩ := Code.fillFrom_site_eq_ok hok
      obtain ⟨hplaced, hmem⟩ := ih hrest
      exact ⟨.site specifier hplaced,
        List.forall_mem_cons.mpr ⟨List.mem_of_getElem? hspecifier, hmem⟩⟩

theorem length_literal_pos (specifier : Text) : 0 < (Json.literal specifier).toList.length := by
  simp [Json.literal]

section Placed

variable {position : Nat} {cs plain : List Char} {sites : List Site}

/-- The sites lie among the characters, none of them empty. -/
theorem Placed.bounds (h : Placed position cs sites plain) :
    ∀ site ∈ sites, position ≤ site.start ∧ site.start < site.stop
      ∧ site.stop ≤ position + cs.length := by
  induction h with
  | nil position => simp
  | char c _ ih =>
    intro site hsite
    have := ih site hsite
    rw [List.length_cons]
    omega
  | site specifier _ ih =>
    have hpos := length_literal_pos specifier
    intro site hsite
    rw [List.length_append]
    rcases List.mem_cons.mp hsite with rfl | hsite
    · dsimp only
      omega
    · have := ih site hsite
      omega

/-- Every site ends in front of the next one. -/
theorem Placed.ordered (h : Placed position cs sites plain) :
    sites.Pairwise fun a b => a.stop ≤ b.start := by
  induction h with
  | nil position => exact List.Pairwise.nil
  | char c _ ih => exact ih
  | site specifier hrest ih =>
    exact List.Pairwise.cons (fun site hsite => (hrest.bounds site hsite).1) ih

/-- At every site stands the literal of its specifier. -/
theorem Placed.extract (h : Placed position cs sites plain) {front : List Char}
    (hfront : front.length = position) :
    ∀ site ∈ sites, (front ++ cs).extract site.start site.stop
      = (Json.literal site.specifier).toList := by
  -- what has been passed is moved to the front, where no later site reaches
  induction h generalizing front with
  | nil position => simp
  | @char c position cs sites plain _ ih =>
    have ih := @ih (front ++ [c]) (by rw [List.length_append, hfront]; rfl)
    rwa [List.append_assoc, List.singleton_append] at ih
  | @site specifier position cs sites plain _ ih =>
    have ih := @ih (front ++ (Json.literal specifier).toList)
      (by rw [List.length_append, hfront])
    rw [List.append_assoc] at ih
    refine List.forall_mem_cons.mpr ⟨?_, ih⟩
    rw [← hfront, List.extract_eq_take_drop, List.drop_left, Nat.add_sub_cancel_left, List.take_left]

end Placed

/-! ## §4. NUL characters -/

theorem Placed.nul_not_mem {position : Nat} {cs plain : List Char} {sites : List Site}
    (h : Placed position cs sites plain) (hplain : '\x00' ∉ plain) : '\x00' ∉ cs := by
  induction h with
  | nil position => exact hplain
  | char c _ ih =>
    rw [List.mem_cons, not_or] at hplain ⊢
    exact ⟨hplain.1, ih hplain.2⟩
  | site specifier _ ih =>
    rw [List.mem_append, not_or]
    exact ⟨nulFree_literal specifier, ih hplain⟩

theorem Code.IsClean.nul_not_mem_plain {count : Nat} {code : Code} (h : code.IsClean count) :
    '\x00' ∉ code.plain := by
  unfold Code.plain
  intro hmem
  obtain ⟨piece, hpiece, heq⟩ := List.mem_filterMap.mp hmem
  have hclean := h piece hpiece
  cases piece with
  | char c =>
    cases heq
    exact hclean rfl
  | site number => cases heq

/-! ## §5. Finished code -/

namespace Code

/-- The numbers of the specifiers have no more digits than can be read. -/
theorem length_toDigits_le_digitLimit {specifiers : List Text} {number : Nat}
    (h : number < specifiers.length) :
    (Nat.toDigits 10 number).length ≤ digitLimit specifiers :=
  Nat.le_trans (length_toDigits_mono (Nat.le_of_lt h)) (Nat.le_max_right _ _)

/-- Finished code is the marked text with the literals filled in. -/
theorem fillFrom_of_finish {specifiers : List Text} {code : Code} {text : String} {sites : List Site}
    (hok : finish specifiers code = .ok (text, sites)) :
    fillFrom specifiers 0 (scan (digitLimit specifiers) (marked code)) = .ok (text.toList, sites) := by
  unfold finish fill at hok
  obtain ⟨⟨cs, others⟩, hfill, hdone⟩ := Result.bind_eq_ok_iff.mp hok
  cases hdone
  rwa [String.toList_ofList]

/-- Of clean code it is the code itself that is filled in, piece by piece. -/
theorem IsClean.fillFrom_of_finish {specifiers : List Text} {code : Code} {text : String}
    {sites : List Site} (hclean : code.IsClean specifiers.length)
    (hok : finish specifiers code = .ok (text, sites)) :
    fillFrom specifiers 0 (code.map Piece.mark) = .ok (text.toList, sites) := by
  rw [← scan_marked hclean fun _ h => length_toDigits_le_digitLimit h]
  exact Code.fillFrom_of_finish hok

/-- Code that is finished has the literals of given specifiers at its sites. -/
theorem placed_finish {specifiers : List Text} {code : Code} {text : String} {sites : List Site}
    (hok : finish specifiers code = .ok (text, sites)) :
    Placed 0 text.toList sites ((scan (digitLimit specifiers) (marked code)).filterMap Mark.char?)
      ∧ ∀ site ∈ sites, site.specifier ∈ specifiers :=
  placed_fillFrom (fillFrom_of_finish hok)

/-- Outside of the literals finished clean code is what was emitted. -/
theorem IsClean.placed_finish {specifiers : List Text} {code : Code} {text : String}
    {sites : List Site} (hclean : code.IsClean specifiers.length)
    (hok : finish specifiers code = .ok (text, sites)) : Placed 0 text.toList sites code.plain := by
  have hplaced := (placed_fillFrom (hclean.fillFrom_of_finish hok)).1
  rwa [filterMap_char?_mark] at hplaced

/-- The characters of a piece, with the literal of its specifier in place of a placeholder. -/
def fillPiece (specifiers : List Text) : Piece → List Char
  | .char c => [c]
  | .site number => (Json.literal (specifiers[number]?.getD default)).toList

/-- The characters of the code, with the literals in place of its placeholders. -/
def filled (specifiers : List Text) (code : Code) : List Char :=
  code.flatMap (fillPiece specifiers)

theorem filled_append (specifiers : List Text) (code other : Code) :
    filled specifiers (code ++ other) = filled specifiers code ++ filled specifiers other :=
  List.flatMap_append

theorem filled_ofText (specifiers : List Text) (text : String) :
    filled specifiers (ofText text) = text.toList := by
  unfold filled ofText
  rw [List.flatMap_map]
  exact List.flatMap_singleton' _

/-- No piece is filled in with nothing. -/
theorem filled_eq_nil_iff {specifiers : List Text} {code : Code} :
    filled specifiers code = [] ↔ code = [] := by
  have hpiece : ∀ piece, fillPiece specifiers piece ≠ [] := by
    intro piece
    cases piece with
    | char c => exact List.cons_ne_nil _ _
    | site number => exact List.ne_nil_of_length_pos (length_literal_pos _)
  cases code with
  | nil => exact iff_of_true rfl rfl
  | cons piece code =>
    refine iff_of_false ?_ (List.cons_ne_nil _ _)
    unfold filled
    rw [List.flatMap_cons]
    exact List.append_ne_nil_of_left_ne_nil (hpiece piece) _

/-- What is filled in piece by piece is the code with its literals. -/
theorem eq_filled_of_fillFrom {specifiers : List Text} {position : Nat} {code : Code} {cs : List Char}
    {sites : List Site} (hok : fillFrom specifiers position (code.map Piece.mark) = .ok (cs, sites)) :
    cs = code.filled specifiers := by
  unfold filled
  induction code generalizing position cs sites with
  | nil =>
    cases hok
    rfl
  | cons piece code ih =>
    rw [List.map_cons] at hok
    cases piece with
    | char c =>
      obtain ⟨rest, hrest, rfl⟩ := fillFrom_char_eq_ok hok
      rw [List.flatMap_cons, ih hrest]
      rfl
    | site number =>
      obtain ⟨specifier, rest, others, hspecifier, hrest, rfl, -⟩ := fillFrom_site_eq_ok hok
      rw [List.flatMap_cons, ih hrest, fillPiece, hspecifier, Option.getD_some]

/-- Finished clean code is the code with its literals. -/
theorem IsClean.toList_finish {specifiers : List Text} {code : Code} {text : String}
    {sites : List Site} (hclean : code.IsClean specifiers.length)
    (hok : finish specifiers code = .ok (text, sites)) : text.toList = code.filled specifiers :=
  eq_filled_of_fillFrom (hclean.fillFrom_of_finish hok)

end Code

/-! ## §6. Exchanging what stands at the sites -/

/-- A text that stands behind `position` elements of a sequence, with other elements in the places
of its sites; the elements between the sites stay as they are. -/
def exchange {α : Type} (f : Site → List α) : Nat → List Site → List α → List α
  | _, [], xs => xs
  | position, site :: sites, xs =>
    xs.take (site.start - position) ++ f site
      ++ exchange f site.stop sites (xs.drop (site.stop - position))

theorem exchange_cons {α : Type} (f : Site → List α) {position : Nat} {sites : List Site}
    (hsites : ∀ site ∈ sites, position + 1 ≤ site.start ∧ site.start < site.stop) (x : α)
    (xs : List α) :
    exchange f position sites (x :: xs) = x :: exchange f (position + 1) sites xs := by
  cases sites with
  | nil => rfl
  | cons site sites =>
    have hbound := hsites site List.mem_cons_self
    have hstart : site.start - position = (site.start - (position + 1)) + 1 := by omega
    have hstop : site.stop - position = (site.stop - (position + 1)) + 1 := by omega
    rw [exchange, exchange, hstart, hstop, List.take_succ_cons, List.drop_succ_cons,
      List.cons_append, List.cons_append]

theorem exchange_congr {α : Type} {f g : Site → List α} {sites : List Site}
    (h : ∀ site ∈ sites, f site = g site) (position : Nat) (xs : List α) :
    exchange f position sites xs = exchange g position sites xs := by
  induction sites generalizing position xs with
  | nil => rfl
  | cons site sites ih =>
    rw [exchange, exchange, h site List.mem_cons_self,
      ih fun other hother => h other (List.mem_cons_of_mem _ hother)]

/-- With nothing in the places of the sites the plain characters are left. -/
theorem Placed.exchange_nil {position : Nat} {cs plain : List Char} {sites : List Site}
    (h : Placed position cs sites plain) : exchange (fun _ => []) position sites cs = plain := by
  induction h with
  | nil position => rfl
  | char c hrest ih =>
    rw [exchange_cons _ fun site hsite => ⟨(hrest.bounds site hsite).1, (hrest.bounds site hsite).2.1⟩,
      ih]
  | site specifier _ ih =>
    rw [exchange, Nat.sub_self, List.take_zero, List.nil_append, List.nil_append,
      Nat.add_sub_cancel_left, List.drop_left, ih]

end LivePreview.Lowering
