/-
  LivePreview.Proofs.Tool.Replacing
  ─────────────────────────────────
  **Replacing says how often it has replaced.**

  A call of the editor that edits a file gives it another content and does nothing else
  (`Rewritten`).  Replacing counts the occurrences of a text and puts another text in
  place of each: the count is that of the seams between the pieces into which the text cuts
  the content, and the new content is made of these very pieces (`call_replace`).  A text
  that does not stand in the file, as the empty one, is not replaced, and nothing changes.
  The words that the call returns tell the count (`toJson_of_replace`).
-/
import LivePreview.Proofs.Json.Encodable
import LivePreview.Proofs.Project.Revision
import LivePreview.Proofs.Text.Occurrence

namespace LivePreview.Tool

open LivePreview.Text (IsCut between occurrences replaceAll)

/-! ## §1. Calls of the editor -/

/-- The arguments give a command and a path, and no field with the name that the tool keeps for itself. -/
structure Asks (arguments : Json) (command : String) (path : Text) : Prop where
  command_eq : argument arguments "command" = .text command
  path_eq : argument arguments "path" = .text path
  field_eq : arguments.field? "vfs" = none

/-- The value is a text, or it is blank and stands for the empty text. -/
def IsGiven (value : Json) (text : Text) : Prop :=
  value = .text text ∨ value.isFilled = false ∧ text = ""

section Calls

variable {project : Project} {arguments value : Json} {path text : Text}

/-- A call that asks the editor for something runs it on the normal form of the path. -/
theorem call_of_asks {command : String} (h : Asks arguments command path) {reply : Editor.Reply}
    {after : Project}
    (hrun : Editor.run project command (Path.normalize path) arguments = .ok (reply, after)) :
    call project "str_replace_editor" arguments = .ok (.editor reply, after) := by
  unfold call runOn
  rw [h.command_eq, h.path_eq, h.field_eq]
  show ((Editor.run project command (Path.normalize path) arguments).map _).mapError _ = _
  rw [hrun]
  rfl

theorem textOr_of_isGiven (h : IsGiven value text) (misfit : Json → Misfit) :
    textOr misfit value = .ok text := by
  rcases h with rfl | ⟨hblank, rfl⟩
  · rfl
  · unfold textOr
    cases value with
    | text s =>
      have hempty : s.points = [] := by simpa [Json.isFilled, Text.isEmpty] using hblank
      exact congrArg Except.ok (Text.ext hempty)
    | _ => exact if_neg (by rw [hblank]; exact nofun)

/-- A text that is given is filled unless it is empty. -/
theorem isFilled_iff_of_isGiven (h : IsGiven value text) : value.isFilled = true ↔ text ≠ "" := by
  rcases h with rfl | ⟨hblank, rfl⟩
  · show (!text.points.isEmpty) = true ↔ _
    rw [Bool.not_eq_true', List.isEmpty_eq_false_iff, not_iff_not]
    exact ⟨fun heq => Text.ext heq, fun heq => by rw [heq]; rfl⟩
  · rw [hblank]
    exact iff_of_false nofun fun hne => hne rfl

end Calls

/-! ## §2. Another content -/

/-- A file has got a content, and nothing else has changed: every other node is what it was, and so is the
whole project if the file had this content before.  Otherwise the project is told that the file has been
modified, and nothing more. -/
structure Rewritten (project : Project) (path content : Text) (after : Project) : Prop where
  read_eq : after.tree.read path = .ok (.text content)
  get?_kept : ∀ q, q ≠ Path.normalize path → after.tree.get? q = project.tree.get? q
  eq_of_same : project.tree.read path = .ok (.text content) → after = project
  eq_of_other : project.tree.read path ≠ .ok (.text content) → after
    = { project with tree := after.tree }.announce (some [.modified (Path.normalize path)])

namespace Editor

variable {project : Project} {path content current : Text}

/-- A file that holds something else is written. -/
theorem writeFile_of_other {tree : Tree} (hfile : tree.read path = .ok (.text current))
    (hother : current ≠ content) : tree.writeFile path (.text content)
      = .ok ⟨Path.normalize path, ⟨tree.nodes.insert (Path.normalize path) (.file (.text content))⟩,
          some [.modified (Path.normalize path)]⟩ := by
  have hdiffers : ¬(Json.text current).agrees (.text content) = true := by
    rw [Module.agrees_text_iff]
    exact fun heq => hother (Json.text.inj heq)
  unfold Tree.writeFile
  dsimp only
  rw [Tree.get?_of_read hfile]
  exact if_neg hdiffers

/-- Overwriting a file announces what writing it does. -/
theorem overwrite_of_writeFile {outcome : Tree.Outcome Text}
    (hok : project.tree.writeFile path (.text content) = .ok outcome) (reply : Reply) :
    overwrite project (Path.normalize path) content reply
      = (reply, { project with tree := outcome.tree }.announce outcome.changes?) := by
  have hwrite : project.tree.writeFile (Path.normalize path) (.text content) = .ok outcome := by
    unfold Tree.writeFile at hok ⊢
    rw [Path.isNormal_normalize path]
    exact hok
  unfold overwrite Project.edit
  dsimp only
  rw [hwrite]

/-- A file that is there is given another content. -/
theorem rewritten_overwrite (hfile : project.tree.read path = .ok (.text current)) (content : Text)
    (reply : Reply) : ∃ after, overwrite project (Path.normalize path) content reply = (reply, after) ∧
      Rewritten project path content after := by
  by_cases hsame : current = content
  · subst hsame
    exact ⟨project, overwrite_of_writeFile (Tree.writeFile_of_read hfile) reply, hfile, fun _ _ => rfl,
      fun _ => rfl, fun hother => absurd hfile hother⟩
  · refine ⟨_, overwrite_of_writeFile (writeFile_of_other hfile hsame) reply, ?_, fun q hq => ?_,
      fun heq => ?_, fun _ => ?_⟩
    · rw [Project.tree_announce]
      exact Tree.read_eq_ok ((Tree.get?_insert _ _ _ _).trans (if_pos rfl))
    · rw [Project.tree_announce]
      exact (Tree.get?_insert _ _ _ _).trans (if_neg hq)
    · rw [hfile] at heq
      exact absurd (Json.text.inj (Except.ok.inj heq)) hsame
    · rw [Project.tree_announce]

/-- What is done with a file that is there is done with its content. -/
theorem editContent_of_read (hfile : project.tree.read path = .ok (.text content))
    (f : Json → Except Misfit (Reply × Project)) :
    editContent project (Path.normalize path) f = f (.text content) := by
  unfold editContent editable
  rw [Tree.get?_of_read hfile]

/-! ## §3. Replacing -/

theorem run_replace (hfile : project.tree.read path = .ok (.text content)) (arguments : Json) :
    run project ("str_replace" : String) (Path.normalize path) arguments
      = replaceIn project (Path.normalize path) (.text content) (argument arguments "old_str")
          (argument arguments "new_str") := by
  unfold run
  rw [Text.string?_ofString]
  exact editContent_of_read hfile _

/-- A text is replaced if it is not empty and occurs. -/
theorem replaceIn_of_isGiven {old new : Text} {oldValue newValue : Json} (hold : IsGiven oldValue old)
    (hnew : IsGiven newValue new) : replaceIn project path (.text content) oldValue newValue
      = .ok (if old ≠ "" ∧ occurrences old content ≠ 0 then
          overwrite project path (replaceAll old new content) (.replaced (occurrences old content) path)
        else (.failed (.patternNotFound old), project)) := by
  unfold replaceIn
  by_cases hempty : old = ""
  · have hblank : oldValue.isFilled = false :=
      Bool.eq_false_iff.mpr fun h => (isFilled_iff_of_isGiven hold).mp h hempty
    rw [hblank, if_neg fun h : old ≠ "" ∧ _ => h.1 hempty, hempty]
    rfl
  · rw [(isFilled_iff_of_isGiven hold).mpr hempty]
    show replaceInText project path content oldValue newValue = _
    unfold replaceInText
    rw [textOr_of_isGiven hold]
    show (if occurrences old content = 0 then _ else _) = _
    by_cases hcount : occurrences old content = 0
    · rw [if_pos hcount, if_neg fun h => h.2 hcount]
      rfl
    · rw [if_neg hcount, textOr_of_isGiven hnew, if_pos ⟨hempty, hcount⟩]
      rfl

end Editor

/-- What replacing a text in a file has done: the text has cut the content into one piece more than it has
been replaced times, and what is written is made of these pieces. -/
structure Replaced (project : Project) (path content old new : Text) (count : Nat)
    (pieces : List (List CodePoint)) (written : Text) (after : Project) : Prop where
  isCut : IsCut old.points content.points pieces
  length_pieces : pieces.length = count + 1
  points_written : written.points = new.points.intercalate pieces
  length_written : (written.length : Int) = content.length + count * ((new.length : Int) - old.length)
  rewritten : Rewritten project path written after

section Replacing

variable {project : Project} {arguments : Json} {path old new content : Text}

/-- A text that stands in the file is replaced, and one that does not is not found. -/
theorem replace_cases (hasks : Asks arguments "str_replace" path)
    (hold : IsGiven (argument arguments "old_str") old) (hnew : IsGiven (argument arguments "new_str") new)
    (hfile : project.tree.read path = .ok (.text content)) :
    ((old ≠ "" ∧ old.points <:+: content.points) ∧ ∃ count pieces written after,
        call project "str_replace_editor" arguments
          = .ok (.editor (.replaced count (Path.normalize path)), after) ∧
        Replaced project path content old new count pieces written after) ∨
      (¬(old ≠ "" ∧ old.points <:+: content.points) ∧
        call project "str_replace_editor" arguments
          = .ok (.editor (.failed (.patternNotFound old)), project)) := by
  have hpoints : old ≠ "" → old.points ≠ [] := fun hne heq => hne (Text.ext heq)
  have hrun := (Editor.run_replace hfile arguments).trans (Editor.replaceIn_of_isGiven hold hnew)
  by_cases hfound : old ≠ "" ∧ occurrences old content ≠ 0
  · obtain ⟨after, hover, hrewritten⟩ := Editor.rewritten_overwrite hfile (replaceAll old new content)
      (.replaced (occurrences old content) (Path.normalize path))
    rw [if_pos hfound, hover] at hrun
    obtain ⟨hne, hoccurs⟩ := hfound
    have hstands := (Text.occurrences_pos_iff (hpoints hne)).mp (Nat.pos_of_ne_zero hoccurs)
    refine .inl ⟨⟨hne, hstands⟩, occurrences old content, between old.points content.points,
      replaceAll old new content, after, call_of_asks hasks hrun, ?_⟩
    exact ⟨(Text.isCut_iff (hpoints hne)).mpr rfl, Text.length_between (hpoints hne), rfl,
      Text.length_replaceAll (hpoints hne) new content, hrewritten⟩
  · rw [if_neg hfound] at hrun
    refine .inr ⟨fun ⟨hne, hstands⟩ => hfound ⟨hne, ?_⟩, call_of_asks hasks hrun⟩
    exact ((Text.occurrences_pos_iff (hpoints hne)).mpr hstands).ne'

/-- **Replacing says how often it has replaced.**  It succeeds exactly if the text is not empty and stands
in the file, and then the number that it replies is that of the places where the text stands, looked for
from the left and each time behind the place before; the new content is what stands between these places,
joined by the new text.  Otherwise it says that it has not found the text, and nothing has changed. -/
theorem call_replace {project : Project} {arguments : Json} {path old new content : Text}
    (hasks : Asks arguments "str_replace" path) (hold : IsGiven (argument arguments "old_str") old)
    (hnew : IsGiven (argument arguments "new_str") new)
    (hfile : project.tree.read path = .ok (.text content)) :
    ∃ reply after, call project "str_replace_editor" arguments = .ok (.editor reply, after) ∧
      ((∃ count, reply = .replaced count (Path.normalize path)) ↔
        old ≠ "" ∧ old.points <:+: content.points) ∧
      (∀ count, reply = .replaced count (Path.normalize path) →
        ∃ pieces written, Replaced project path content old new count pieces written after) ∧
      ((∀ count, reply ≠ .replaced count (Path.normalize path)) →
        reply = .failed (.patternNotFound old) ∧ after = project) := by
  rcases replace_cases hasks hold hnew hfile with
    ⟨hstands, count, pieces, written, after, hcall, hreplaced⟩ | ⟨hmissing, hcall⟩
  · refine ⟨.replaced count (Path.normalize path), after, hcall, iff_of_true ⟨count, rfl⟩ hstands,
      fun other heq => ?_, fun hfailed => absurd rfl (hfailed count)⟩
    cases heq
    exact ⟨pieces, written, hreplaced⟩
  · refine ⟨.failed (.patternNotFound old), project, hcall, iff_of_false ?_ hmissing, fun count heq => ?_,
      fun _ => ⟨rfl, rfl⟩⟩
    · rintro ⟨count, heq⟩
      cases heq
    · cases heq

/-- A file with places where one text overlaps itself. -/
def overlappingProject : Project :=
  ({} : Project).performEdit (.createFile "/a.txt" "aaaa-aaa")

/-- The call that makes the overlapping text shorter. -/
def overlappingCall : Json :=
  .object [("command", .text "str_replace"), ("path", .text "a.txt"), ("old_str", .text "aa"),
    ("new_str", .text "a")]

/-- Two letters are replaced three times by one, although they come together anew. -/
theorem call_replace_overlapping :
    ∃ after, call overlappingProject "str_replace_editor" overlappingCall
        = .ok (.editor (.replaced 3 "/a.txt"), after) ∧
      after.tree.read "/a.txt" = .ok (.text "aa-aa") := by
  have hasks : Asks overlappingCall "str_replace" "a.txt" := ⟨by decide, by decide, by decide⟩
  have hold : IsGiven (argument overlappingCall "old_str") "aa" := .inl (by decide)
  have hnew : IsGiven (argument overlappingCall "new_str") "a" := .inl (by decide)
  have hfile : overlappingProject.tree.read "a.txt" = .ok (.text "aaaa-aaa") := by decide +kernel
  obtain ⟨reply, after, hcall, hsucceeds, hreplaced, -⟩ := call_replace hasks hold hnew hfile
  obtain ⟨count, rfl⟩ := hsucceeds.mpr ⟨by decide, [], _, rfl⟩
  obtain ⟨pieces, written, hdone⟩ := hreplaced count rfl
  obtain rfl := (Text.isCut_iff (by decide)).mp hdone.isCut
  have hcount : 4 = count + 1 := hdone.length_pieces
  obtain rfl := Nat.succ.inj hcount
  have hwritten : written = "aa-aa" := Text.ext (hdone.points_written.trans (by decide))
  refine ⟨after, hcall, ?_⟩
  rw [← hwritten]
  exact hdone.rewritten.read_eq

/-! ## §4. What is said of replacing -/

/-- The number stands in the words that tell of it. -/
theorem Editor.Reply.text_replaced_inj {m n : Nat}
    (h : (Editor.Reply.replaced m path).text = (Editor.Reply.replaced n path).text) : m = n := by
  have hwords := List.append_cancel_right (List.append_cancel_right (congrArg Text.points h))
  have hnumbers : toString m = toString n :=
    Text.points_ofString_injective (List.append_cancel_left hwords)
  rw [Nat.toString_eq_ofList_toDigits, Nat.toString_eq_ofList_toDigits] at hnumbers
  rw [← @Nat.ofDigitChars_ten_toDigits m, String.ofList_injective hnumbers, Nat.ofDigitChars_ten_toDigits]

/-- **The words that a call returns tell how often a text has been replaced**, or else that it has not been
found. -/
theorem toJson_of_replace (hasks : Asks arguments "str_replace" path)
    (hold : IsGiven (argument arguments "old_str") old) (hnew : IsGiven (argument arguments "new_str") new)
    (hfile : project.tree.read path = .ok (.text content)) :
    ∃ reply after, call project "str_replace_editor" arguments = .ok (reply, after) ∧
      ((∃ count : Nat, reply.toJson = .text ("Replaced " ++ toString count
          ++ " occurrence(s) of the string in " ++ Path.normalize path)) ↔
        old ≠ "" ∧ old.points <:+: content.points) ∧
      (∀ count : Nat, reply.toJson = .text ("Replaced " ++ toString count
          ++ " occurrence(s) of the string in " ++ Path.normalize path) →
        ∃ pieces written, Replaced project path content old new count pieces written after) ∧
      (¬(old ≠ "" ∧ old.points <:+: content.points) →
        reply.toJson = .text ("Error: " ++ ("String not found in file: \"" ++ old ++ "\""))
          ∧ after = project) := by
  rcases replace_cases hasks hold hnew hfile with
    ⟨hstands, count, pieces, written, after, hcall, hreplaced⟩ | ⟨hmissing, hcall⟩
  · refine ⟨_, after, hcall, iff_of_true ⟨count, rfl⟩ hstands, fun other heq => ?_,
      fun hmissing => absurd hstands hmissing⟩
    obtain rfl := Editor.Reply.text_replaced_inj (Json.text.inj heq)
    exact ⟨pieces, written, hreplaced⟩
  · -- the words of a failure begin with another letter
    have hother : ∀ count : Nat, (Editor.Reply.failed (.patternNotFound old)).text
        ≠ (Editor.Reply.replaced count (Path.normalize path)).text := by
      intro count heq
      have hfirst : some (CodePoint.char 'E') = some (CodePoint.char 'R') :=
        congrArg (fun text => text.points.head?) heq
      exact absurd hfirst (by decide)
    refine ⟨_, project, hcall, iff_of_false ?_ hmissing, fun count heq => ?_, fun _ => ⟨rfl, rfl⟩⟩
    · rintro ⟨count, heq⟩
      exact hother count (Json.text.inj heq)
    · exact absurd (Json.text.inj heq) (hother count)

end Replacing

end LivePreview.Tool
