/-
  LivePreview.Proofs.Tool.Lines
  ─────────────────────────────
  **Viewing and inserting agree on the numbers of lines.**

  A view of a file shows its lines with numbers from one.  Of a range the lines are shown
  whose numbers lie in it, and it is cut where the file ends, so that every number which is
  left is that of a line (`exists_shows_range`).

  A text is inserted behind as many lines as the number says.  What is written consists of
  the lines in front, those of the text, and the lines behind (`lines_unlines_inserted`);
  so a view shows the lines in front as before, and those behind with numbers that are
  higher by the number of lines that have come in between (`call_insert`).  The words that
  the call returns tell which it was (`toJson_of_insert`).
-/
import Mathlib.Data.Int.Range
import LivePreview.Proofs.Tool.Replacing

namespace LivePreview.Tool

open LivePreview.Text (lines unlines)
open LivePreview.Tool.Editor (numbered rangeBounds shownLines)

/-! ## §1. Numbered lines -/

/-- Lines as they are shown if the first one has the given number. -/
def numberedFrom (first : Nat) (ls : List Text) : List Text :=
  (ls.zipIdx first).map numbered

/-- The number lies in a range. -/
def isBetween (first last : Int) (number : Nat) : Bool :=
  first ≤ number && number ≤ last

/-- The line with a number, as it is shown, if there is one. -/
def lineAt? (ls : List Text) (number : Int) : Option Text :=
  if 1 ≤ number then
    ls[(number - 1).toNat]?.map fun line => numbered (line, number.toNat)
  else none

/-- The lines with the numbers from `first` to `last`, as they are shown; none at all if one of the
numbers is not that of a line. -/
def linesAt? (ls : List Text) (first last : Int) : Option (List Text) :=
  (Int.range first (last + 1)).mapM (lineAt? ls)

section Numbered

variable (ls : List Text)

theorem isBetween_iff {first last : Int} {n : Nat} : isBetween first last n = true ↔ first ≤ n ∧ n ≤ last := by
  unfold isBetween
  rw [Bool.and_eq_true, decide_eq_true_eq, decide_eq_true_eq]

theorem numberedFrom_append (first : Nat) (front back : List Text) : numberedFrom first (front ++ back)
    = numberedFrom first front ++ numberedFrom (first + front.length) back := by
  unfold numberedFrom
  rw [List.zipIdx_append, List.map_append]

theorem filter_zipIdx_of_forall {p : Nat → Bool} {start : Nat}
    (h : ∀ n, start ≤ n → n < ls.length + start → p n = true) :
    (ls.zipIdx start).filter (fun line => p line.2) = ls.zipIdx start :=
  List.filter_eq_self.mpr fun _ hmem => h _ (List.le_snd_of_mem_zipIdx hmem) (List.snd_lt_of_mem_zipIdx hmem)

theorem filter_zipIdx_of_forall_not {p : Nat → Bool} {start : Nat}
    (h : ∀ n, start ≤ n → n < ls.length + start → p n = false) :
    (ls.zipIdx start).filter (fun line => p line.2) = [] := by
  refine List.filter_eq_nil_iff.mpr fun _ hmem => ?_
  rw [h _ (List.le_snd_of_mem_zipIdx hmem) (List.snd_lt_of_mem_zipIdx hmem)]
  exact nofun

/-- The lines that are shown of a range are those behind the ones in front of it. -/
theorem shownLines_eq (k : Nat) (last : Int) : shownLines ls (k + 1) last
    = numberedFrom (k + 1) ((ls.drop k).take (last - k).toNat) := by
  let front := ls.take k
  let middle := (ls.drop k).take (last - k).toNat
  let back := (ls.drop k).drop (last - k).toNat
  have hhidden : ∀ n : Nat, n ≤ k ∨ last < n → isBetween (k + 1) last n = false := fun n hout => by
    rw [Bool.eq_false_iff, Ne, isBetween_iff]
    omega
  have hsplit : ls.zipIdx 1 = front.zipIdx 1 ++ (middle.zipIdx (1 + front.length)
      ++ back.zipIdx (1 + front.length + middle.length)) := by
    rw [← List.zipIdx_append, ← List.zipIdx_append, List.take_append_drop, List.take_append_drop]
  have hfront : front.length = min k ls.length := List.length_take
  have hmiddle : middle.length = min (last - k).toNat (ls.length - k) := by
    rw [List.length_take, List.length_drop]
  have hback : back.length = ls.length - k - (last - k).toNat := by
    rw [List.length_drop, List.length_drop]
  -- the range begins with the middle unless nothing is in it
  have hstart : middle.zipIdx (1 + front.length) = middle.zipIdx (k + 1) := by
    by_cases hempty : middle.length = 0
    · rw [List.length_eq_zero_iff.mp hempty]
      rfl
    · rw [show 1 + front.length = k + 1 by omega]
  show ((ls.zipIdx 1).filter fun line => isBetween (k + 1) last line.2).map numbered
    = (middle.zipIdx (k + 1)).map numbered
  rw [hsplit, hstart, List.filter_append, List.filter_append,
    filter_zipIdx_of_forall_not front fun n _ hlt => ?_, filter_zipIdx_of_forall middle fun n hle hlt => ?_,
    filter_zipIdx_of_forall_not back fun n hle hlt => ?_, List.nil_append, List.append_nil]
  · exact hhidden n (by omega)
  · exact isBetween_iff.mpr (by omega)
  · exact hhidden n (by omega)

theorem lineAt?_eq {k : Nat} (h : k < ls.length) : lineAt? ls (k + 1) = some (numbered (ls[k], k + 1)) := by
  unfold lineAt?
  rw [if_pos (by omega), show (k + 1 - 1 : Int).toNat = k by omega, show (k + 1 : Int).toNat = k + 1 by omega,
    List.getElem?_eq_getElem h]
  rfl

theorem mapM_lineAt? {k count : Nat} (h : count ≤ ls.length - k) :
    (List.range count).mapM (fun i : Nat => lineAt? ls (k + 1 + i))
      = some (numberedFrom (k + 1) ((ls.drop k).take count)) := by
  induction count with
  | zero => rfl
  | succ count ih =>
    have hlt : k + count < ls.length := by omega
    have hline : lineAt? ls (k + 1 + count) = some (numbered (ls[k + count], k + 1 + count)) := by
      have hat := lineAt?_eq ls hlt
      rw [Nat.add_right_comm k count 1] at hat
      rw [← hat]
      congr 1
      omega
    have htake : (ls.drop k).take (count + 1) = (ls.drop k).take count ++ [ls[k + count]] := by
      rw [List.take_add_one, List.getElem?_drop, List.getElem?_eq_getElem hlt, Option.toList_some]
    have hlength : ((ls.drop k).take count).length = count := by
      rw [List.length_take, List.length_drop]
      omega
    rw [List.range_succ, List.mapM_append, ih (by omega), List.mapM_cons, hline, htake, numberedFrom_append,
      hlength]
    rfl

/-- All numbers of a range that begins at a line and does not go on behind the last one are those of lines. -/
theorem linesAt?_eq {k : Nat} {last : Int} (hlast : last ≤ ls.length) :
    linesAt? ls (k + 1) last = some (shownLines ls (k + 1) last) := by
  have hcount : (last + 1 - (k + 1 : Int)).toNat = (last - k).toNat := by omega
  unfold linesAt? Int.range
  rw [List.mapM_map, shownLines_eq, hcount]
  exact mapM_lineAt? ls (by omega)

end Numbered

/-! ## §2. Viewing -/

/-- Asked for a file or some of its lines, the editor shows lines, and nothing changes. -/
def Shows (project : Project) (path : Text) (range : Json) (shown : List Text) : Prop :=
  ∀ arguments, Asks arguments "view" path → argument arguments "view_range" = range →
    call project "str_replace_editor" arguments = .ok (.editor (.viewed (unlines shown)), project)

section Viewing

variable {project : Project} {path content : Text} {range : Json}

theorem rangeBounds_of_blank (count : Nat) (hblank : range.isFilled = false) :
    rangeBounds count range = .ok (1, count) := by
  unfold rangeBounds
  rw [hblank]
  rfl

theorem isBelow?_int (n m : Int) : isBelow? n (.int m) = some (decide (m < n)) := rfl

theorem isAbove?_int (n m : Int) : isAbove? n (.int m) = some (decide (n < m)) := rfl

theorem rangeStart_int (s : Int) : Editor.rangeStart (.int s) = .ok (.int (max 1 s)) := by
  unfold Editor.rangeStart
  rw [isBelow?_int]
  by_cases hbelow : s < 1
  · rw [decide_eq_true hbelow, max_eq_left hbelow.le]
  · rw [decide_eq_false hbelow, max_eq_right (not_lt.mp hbelow)]

theorem rangeStop_int (count : Nat) (e : Int) : Editor.rangeStop count (some (.int e))
    = .ok (.int (if e = -1 then count else min e count)) := by
  have hopen : Editor.isOpenEnd (.int e) = decide (e = -1) := by
    show decide (Json.int e = Json.int (-1)) = _
    exact decide_eq_decide.mpr ⟨Json.int.inj, congrArg Json.int⟩
  unfold Editor.rangeStop
  rw [Option.filter_some, hopen]
  by_cases hend : e = -1
  · rw [if_pos hend, decide_eq_true hend]
    rfl
  · rw [if_neg hend, decide_eq_false hend, Bool.not_false, if_pos rfl]
    dsimp only
    rw [isAbove?_int]
    by_cases habove : (count : Int) < e
    · rw [decide_eq_true habove, min_eq_right habove.le]
    · rw [decide_eq_false habove, min_eq_left (not_lt.mp habove)]

theorem rangeBounds_pair (count : Nat) (s e : Int) : rangeBounds count (.array [.int s, .int e])
    = .ok (max 1 s, if e = -1 then count else min e count) := by
  unfold rangeBounds
  show (Editor.rangeStart (.int s) >>= _) = _
  rw [rangeStart_int]
  show (Editor.rangeStop count (some (.int e)) >>= _) = _
  rw [rangeStop_int]
  rfl

theorem shows_of_bounds (hfile : project.tree.read path = .ok (.text content)) {first last : Int}
    (hbounds : rangeBounds (lines content).length range = .ok (first, last)) :
    Shows project path range (shownLines (lines content) first last) := by
  rintro arguments hasks rfl
  refine call_of_asks hasks ?_
  unfold Editor.run
  rw [Text.string?_ofString]
  show (Editor.view _ _ _).map _ = _
  unfold Editor.view
  rw [Tree.get?_of_read hfile]
  dsimp only
  rw [hbounds]
  rfl

/-- A view without a range shows all lines. -/
theorem shows_all (hfile : project.tree.read path = .ok (.text content)) (hblank : range.isFilled = false) :
    Shows project path range (numberedFrom 1 (lines content)) := by
  have hshows := shows_of_bounds hfile (rangeBounds_of_blank _ hblank)
  have hall := shownLines_eq (lines content) 0 (lines content).length
  rw [List.drop_zero, List.take_of_length_le (by omega)] at hall
  rw [← hall]
  exact hshows

/-- A view of a range shows the lines with its numbers. -/
theorem exists_shows_range (hfile : project.tree.read path = .ok (.text content)) (s e : Int) :
    ∃ shown, linesAt? (lines content) (max 1 s) (if e = -1 then (lines content).length
        else min e (lines content).length) = some shown ∧
      Shows project path (.array [.int s, .int e]) shown := by
  obtain ⟨k, hfirst⟩ : ∃ k : Nat, max 1 s = k + 1 := ⟨(max 1 s - 1).toNat, by omega⟩
  refine ⟨_, ?_, shows_of_bounds hfile (rangeBounds_pair _ s e)⟩
  rw [hfirst]
  exact linesAt?_eq _ (by split <;> omega)

end Viewing

/-! ## §3. Inserting -/

/-- A file has got the lines of a text behind its first `k` lines.  A view shows these as before, then the
lines of the text, and then the others with numbers that are higher by as many. -/
structure Inserted (project : Project) (path content text : Text) (k : Nat) (written : Text)
    (after : Project) : Prop where
  lines_written : lines written = (lines content).take k ++ lines text ++ (lines content).drop k
  rewritten : Rewritten project path written after
  shows_before : ∀ range : Json, range.isFilled = false → Shows project path range
    (numberedFrom 1 ((lines content).take k) ++ numberedFrom (k + 1) ((lines content).drop k))
  shows_after : ∀ range : Json, range.isFilled = false → Shows after path range
    (numberedFrom 1 ((lines content).take k) ++ numberedFrom (k + 1) (lines text)
      ++ numberedFrom (k + 1 + (lines text).length) ((lines content).drop k))

section Inserting

variable {project : Project} {path content text : Text}

/-- The lines of what is written when a text is inserted among the lines of another one. -/
theorem lines_unlines_inserted (content text : Text) (k : Nat) :
    lines (unlines ((lines content).take k ++ text :: (lines content).drop k))
      = (lines content).take k ++ lines text ++ (lines content).drop k := by
  have hself : ∀ ls ⊆ lines content, ls.flatMap lines = ls := fun ls hsub => by
    rw [List.flatMap_congr (fun line hmem => Text.lines_of_mem_lines (hsub hmem)), List.flatMap_singleton']
  have hne : (lines content).take k ++ text :: (lines content).drop k ≠ [] :=
    List.append_ne_nil_of_right_ne_nil _ (List.cons_ne_nil _ _)
  rw [Text.lines_unlines hne, List.flatMap_append, List.flatMap_cons, hself _ (List.take_subset _ _),
    hself _ (List.drop_subset _ _), List.append_assoc]

theorem run_insert (hfile : project.tree.read path = .ok (.text content)) (arguments : Json) :
    Editor.run project ("insert" : String) (Path.normalize path) arguments
      = Editor.insertIn project (Path.normalize path) (.text content) (argument arguments "insert_line")
          (argument arguments "new_str") := by
  unfold Editor.run
  rw [Text.string?_ofString]
  exact Editor.editContent_of_read hfile _

/-- A text is inserted if there are as many lines as it is to stand behind. -/
theorem insertIn_of_isGiven {value : Json} (hnew : IsGiven value text) (k : Int) :
    Editor.insertIn project path (.text content) (.int k) value
      = .ok (if 0 ≤ k ∧ k ≤ (lines content).length then
          Editor.overwrite project path
            (unlines ((lines content).take k.toNat ++ text :: (lines content).drop k.toNat))
            (.inserted (.int k) path)
        else (.failed (.noSuchLine (.int k) (lines content).length), project)) := by
  have hline : (if (Json.int k).isFilled then Json.int k else .int 0) = .int k := by
    split
    · rfl
    · next hblank =>
      have hzero : k = 0 := by simpa [Json.isFilled] using hblank
      rw [hzero]
  unfold Editor.insertIn Editor.contentText
  dsimp only [bind, Except.bind]
  rw [hline, isBelow?_int, isAbove?_int]
  by_cases hbelow : k < 0
  · rw [decide_eq_true hbelow, if_neg fun h => absurd hbelow (not_lt.mpr h.1)]
    rfl
  by_cases habove : ((lines content).length : Int) < k
  · rw [decide_eq_false hbelow, decide_eq_true habove, if_neg fun h => absurd habove (not_lt.mpr h.2)]
    rfl
  rw [decide_eq_false hbelow, decide_eq_false habove, if_pos ⟨not_lt.mp hbelow, not_lt.mp habove⟩]
  show (textOr (.insertedText k) value >>= _) = _
  rw [textOr_of_isGiven hnew]
  rfl

/-- What a view shows before and after a text has been inserted. -/
theorem inserted_of_rewritten (hfile : project.tree.read path = .ok (.text content)) {k : Nat}
    (hk : k ≤ (lines content).length) {after : Project}
    (h : Rewritten project path (unlines ((lines content).take k ++ text :: (lines content).drop k)) after) :
    Inserted project path content text k
      (unlines ((lines content).take k ++ text :: (lines content).drop k)) after := by
  have hwritten := lines_unlines_inserted content text k
  have hfront : ((lines content).take k).length = k := List.length_take_of_le hk
  refine ⟨hwritten, h, fun range hblank => ?_, fun range hblank => ?_⟩
  · have hshows := shows_all hfile hblank
    rw [← List.take_append_drop k (lines content), numberedFrom_append, hfront, Nat.add_comm] at hshows
    exact hshows
  · have hshows := shows_all h.read_eq hblank
    rw [hwritten, numberedFrom_append, numberedFrom_append, List.length_append, hfront, ← Nat.add_assoc,
      Nat.add_comm 1 k] at hshows
    exact hshows

/-- A text is inserted behind as many lines as there are, and behind no others. -/
theorem insert_cases (hfile : project.tree.read path = .ok (.text content)) {arguments : Json} {k : Int}
    (hasks : Asks arguments "insert" path) (hline : argument arguments "insert_line" = .int k)
    (hnew : IsGiven (argument arguments "new_str") text) :
    ((0 ≤ k ∧ k ≤ (lines content).length) ∧ ∃ written after,
        call project "str_replace_editor" arguments
          = .ok (.editor (.inserted (.int k) (Path.normalize path)), after) ∧
        Inserted project path content text k.toNat written after) ∨
      (¬(0 ≤ k ∧ k ≤ (lines content).length) ∧
        call project "str_replace_editor" arguments
          = .ok (.editor (.failed (.noSuchLine (.int k) (lines content).length)), project)) := by
  have hrun := run_insert hfile arguments
  rw [hline, insertIn_of_isGiven hnew] at hrun
  by_cases hk : 0 ≤ k ∧ k ≤ (lines content).length
  · obtain ⟨after, hover, hrewritten⟩ := Editor.rewritten_overwrite hfile
      (unlines ((lines content).take k.toNat ++ text :: (lines content).drop k.toNat))
      (.inserted (.int k) (Path.normalize path))
    rw [if_pos hk, hover] at hrun
    exact .inl ⟨hk, _, after, call_of_asks hasks hrun,
      inserted_of_rewritten hfile (Int.toNat_le.mpr hk.2) hrewritten⟩
  · rw [if_neg hk] at hrun
    exact .inr ⟨hk, call_of_asks hasks hrun⟩

end Inserting

/-- **Viewing and inserting agree on the numbers of lines.**  A text is inserted exactly if its number is
not below zero and not above that of the lines; then the file has the lines of the text behind as many
lines as the number says, and otherwise nothing has changed.  A view of a range shows exactly the lines
with the numbers of the range, as far as there are lines. -/
theorem call_insert {project : Project} {path content : Text}
    (hfile : project.tree.read path = .ok (.text content)) :
    (∀ arguments (k : Int) text, Asks arguments "insert" path →
      argument arguments "insert_line" = .int k → IsGiven (argument arguments "new_str") text →
      ∃ reply after, call project "str_replace_editor" arguments = .ok (.editor reply, after) ∧
        (reply = .inserted (.int k) (Path.normalize path) ↔ 0 ≤ k ∧ k ≤ (lines content).length) ∧
        (reply = .inserted (.int k) (Path.normalize path) →
          ∃ written, Inserted project path content text k.toNat written after) ∧
        (reply ≠ .inserted (.int k) (Path.normalize path) →
          reply = .failed (.noSuchLine (.int k) (lines content).length) ∧ after = project)) ∧
    ∀ s e : Int, ∃ shown, linesAt? (lines content) (max 1 s)
        (if e = -1 then (lines content).length else min e (lines content).length) = some shown ∧
      Shows project path (.array [.int s, .int e]) shown := by
  refine ⟨fun arguments k text hasks hline hnew => ?_, exists_shows_range hfile⟩
  rcases insert_cases hfile hasks hline hnew with
    ⟨hk, written, after, hcall, hinserted⟩ | ⟨hk, hcall⟩
  · exact ⟨.inserted (.int k) (Path.normalize path), after, hcall, iff_of_true rfl hk,
      fun _ => ⟨written, hinserted⟩, fun hfailed => absurd rfl hfailed⟩
  · exact ⟨.failed (.noSuchLine (.int k) (lines content).length), project, hcall, iff_of_false nofun hk,
      nofun, fun _ => ⟨rfl, rfl⟩⟩

/-- A file of three lines, the last of them empty. -/
def listedProject : Project :=
  ({} : Project).performEdit (.createFile "/a.txt" "one\ntwo\n")

/-- The call that inserts two lines behind the first one. -/
def insertCall : Json :=
  .object [("command", .text "insert"), ("path", .text "a.txt"), ("insert_line", .int 1),
    ("new_str", .text "x\ny")]

/-- The call that views lines of the file. -/
def viewCall (range : Json) : Json :=
  .object [("command", .text "view"), ("path", .text "a.txt"), ("view_range", range)]

/-- Two lines come in behind the first one, and those behind it are shown with numbers that are higher by
two; a range that begins and ends outside the file is cut to its lines. -/
theorem call_insert_listed :
    (∃ after, call listedProject "str_replace_editor" insertCall
        = .ok (.editor (.inserted (.int 1) "/a.txt"), after) ∧
      after.tree.read "/a.txt" = .ok (.text "one\nx\ny\ntwo\n") ∧
      call after "str_replace_editor" (viewCall .null)
        = .ok (.editor (.viewed "1\tone\n2\tx\n3\ty\n4\ttwo\n5\t"), after)) ∧
    call listedProject "str_replace_editor" (viewCall (.array [.int (-4), .int 9]))
      = .ok (.editor (.viewed "1\tone\n2\ttwo\n3\t"), listedProject) := by
  have hfile : listedProject.tree.read "a.txt" = .ok (.text "one\ntwo\n") := by decide +kernel
  have hasks : Asks insertCall "insert" "a.txt" := ⟨by decide, by decide, by decide⟩
  have hview : ∀ range, Asks (viewCall range) "view" "a.txt" := fun range => ⟨rfl, rfl, rfl⟩
  obtain ⟨hinsert, hrange⟩ := call_insert hfile
  constructor
  · have hline : argument insertCall "insert_line" = .int 1 := by decide
    have hnew : IsGiven (argument insertCall "new_str") "x\ny" := .inl (by decide)
    obtain ⟨reply, after, hcall, hsucceeds, hinserted, -⟩ := hinsert insertCall 1 "x\ny" hasks hline hnew
    obtain rfl := hsucceeds.mpr (by decide)
    obtain ⟨written, hdone⟩ := hinserted rfl
    have hwritten : written = "one\nx\ny\ntwo\n" := by
      rw [← Text.unlines_lines written, hdone.lines_written]
      decide
    refine ⟨after, hcall, ?_, hdone.shows_after .null rfl _ (hview .null) rfl⟩
    rw [← hwritten]
    exact hdone.rewritten.read_eq
  · obtain ⟨shown, hshown, hshows⟩ := hrange (-4) 9
    have hlines : linesAt? (lines "one\ntwo\n") 1 3 = some [("1\tone" : Text), "2\ttwo", "3\t"] := by
      decide
    obtain rfl := Option.some.inj (hlines.symm.trans hshown)
    exact hshows _ (hview _) rfl

/-! ## §4. What is said of lines -/

/-- **The words that a call returns tell whether a text has been inserted**, and a view returns the lines
that it shows. -/
theorem toJson_of_insert {project : Project} {path content : Text}
    (hfile : project.tree.read path = .ok (.text content)) :
    (∀ arguments (k : Int) text, Asks arguments "insert" path →
      argument arguments "insert_line" = .int k → IsGiven (argument arguments "new_str") text →
      ∃ reply after, call project "str_replace_editor" arguments = .ok (reply, after) ∧
        (reply.toJson = .text ("Text inserted at line " ++ toString k ++ " in " ++ Path.normalize path) ↔
          0 ≤ k ∧ k ≤ (lines content).length) ∧
        (0 ≤ k ∧ k ≤ (lines content).length →
          ∃ written, Inserted project path content text k.toNat written after) ∧
        (¬(0 ≤ k ∧ k ≤ (lines content).length) →
          reply.toJson = .text ("Error: " ++ ("Invalid line number: " ++ toString k ++ ". File has "
            ++ toString (lines content).length ++ " lines.")) ∧ after = project)) ∧
    ∀ arguments (s e : Int), Asks arguments "view" path →
      argument arguments "view_range" = .array [.int s, .int e] →
      ∃ reply shown, call project "str_replace_editor" arguments = .ok (reply, project) ∧
        reply.toJson = .text (unlines shown) ∧
        linesAt? (lines content) (max 1 s)
          (if e = -1 then (lines content).length else min e (lines content).length) = some shown := by
  refine ⟨fun arguments k text hasks hline hnew => ?_, fun arguments s e hasks hrange => ?_⟩
  · rcases insert_cases hfile hasks hline hnew with
      ⟨hk, written, after, hcall, hinserted⟩ | ⟨hk, hcall⟩
    · exact ⟨_, after, hcall, iff_of_true rfl hk, fun _ => ⟨written, hinserted⟩, fun hnot => absurd hk hnot⟩
    · refine ⟨_, project, hcall, iff_of_false (fun heq => ?_) hk, fun hfits => absurd hfits hk,
        fun _ => ⟨rfl, rfl⟩⟩
      -- the words of a failure begin with another letter
      have hfirst : some (CodePoint.char 'E') = some (CodePoint.char 'T') :=
        congrArg (fun text => text.points.head?) (Json.text.inj heq)
      exact absurd hfirst (by decide)
  · obtain ⟨shown, hshown, hshows⟩ := exists_shows_range hfile s e
    exact ⟨_, shown, hshows arguments hasks hrange, rfl, hshown⟩

end LivePreview.Tool
