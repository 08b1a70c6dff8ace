/-
  LivePreview.Tool.Editor
  ───────────────────────
  **The editor: view, create, replace, insert.**

  Lines end at a line feed and are counted from one; inserting at a line puts the
  text behind it, so that zero is the top of the file.  Every call has a reply in
  words (`Reply.text`), and a reply that tells of a failure leaves the project as it
  was.
-/
import LivePreview.Json.Basic
import LivePreview.Project
import LivePreview.Text.Occurrence
import LivePreview.Tool.Basic

namespace LivePreview.Tool.Editor

open LivePreview.Text (lines occurrences replaceAll unlines)

/-! ## §1. Replies -/

/-- Why a call of the editor fails. -/
inductive Failure where
  | fileExists (path : Text)
  | rejected (error : Tree.Error)
  | fileNotFound (path : Text)
  | isADirectory (path : Text)
  | patternNotFound (pattern : Text)
  /-- There is no such line in a file with `count` lines. -/
  | noSuchLine (line : Json) (count : Nat)
  | undoUnsupported
  | unknownCommand (name : Text)

/-- The wording of a failure. -/
def Failure.message : Failure → Text
  | .fileExists path => "File already exists: " ++ path
  | .rejected error => error.message
  | .fileNotFound path => "File not found: " ++ path
  | .isADirectory path => "Cannot edit a directory: " ++ path
  | .patternNotFound pattern => "String not found in file: \"" ++ pattern ++ "\""
  | .noSuchLine line count =>
    "Invalid line number: " ++ line.shown ++ ". File has " ++ toString count ++ " lines."
  | .undoUnsupported =>
    "undo_edit command is not supported in this version. Use str_replace to revert changes."
  | .unknownCommand name => "Unknown command: " ++ name

/-- What the editor replies. -/
inductive Reply where
  | viewed (text : Text)
  | nothingToView (path : Text)
  | created (path : Text)
  | replaced (count : Nat) (path : Text)
  | inserted (line : Json) (path : Text)
  | failed (failure : Failure)

/-- A reply in words. -/
def Reply.text : Reply → Text
  | .viewed text => text
  | .nothingToView path => "File not found: " ++ path
  | .created path => "File created: " ++ path
  | .replaced count path =>
    "Replaced " ++ toString count ++ " occurrence(s) of the string in " ++ path
  | .inserted line path => "Text inserted at line " ++ line.shown ++ " in " ++ path
  | .failed failure => "Error: " ++ failure.message

/-! ## §2. Viewing -/

/-- A line as it is shown: its number, a tab, and its text. -/
def numbered (line : Text × Nat) : Text :=
  toString line.2 ++ "\t" ++ line.1

/-- The lines from `start` to `stop`, numbered. -/
def shownLines (ls : List Text) (start stop : Int) : List Text :=
  ((ls.zipIdx 1).filter fun (_, n) => start ≤ n && n ≤ stop).map numbered

/-- The parts of a range: its start and, if it has one, its end. -/
def rangeParts (range : Json) : Except Misfit (Json × Option Json) :=
  match range with
  | .array (start :: rest) => .ok (start, rest.head?)
  | .text _ => .error (.rangeStart range)
  | _ => .error (.lineRange range)

/-- The start of a range as a value: line one, or what is given if that is not before it. -/
def rangeStart (given : Json) : Except Misfit Json :=
  match isBelow? 1 given with
  | some true => .ok (.int 1)
  | some false => .ok given
  | none => .error (.rangeStart given)

/-- The value stands for the end of a text. -/
def isOpenEnd (given : Json) : Bool :=
  match given with
  | .double x => x.toInt? == some (-1)
  | _ => given = .int (-1)

/-- The end of a range in a text with `count` lines as a value: the last line, or what is given if
that is not behind it. -/
def rangeStop (count : Nat) (given? : Option Json) : Except Misfit Json :=
  match given?.filter (!isOpenEnd ·) with
  | none => .ok (.int count)
  | some given =>
    match isAbove? count given with
    | some true => .ok (.int count)
    | some false => .ok given
    | none => .error (.rangeStop given)

/-- The first and the last line of a range in a text with `count` lines.  A range without end, or
with the end minus one, goes on to the last line. -/
def rangeBounds (count : Nat) (range : Json) : Except Misfit (Int × Int) := do
  if !range.isFilled then return (1, count)
  let (first, last?) ← rangeParts range
  let start ← rangeStart first
  let stop ← rangeStop count last?
  return (← lineNumber start, ← lineNumber stop)

/-- What a directory holds, a line for each name. -/
def listing (tree : Tree) (path : Text) (names : List Text) : Text :=
  if names.isEmpty then "(empty directory)"
  else
    let directory : Text := ⟨Text.dropEndWhile (· == Path.slash) path.points⟩
    unlines (names.map fun name =>
      (if tree.isDirectory (directory ++ "/" ++ name) then "[DIR] " else "[FILE] ") ++ name)

/-- View a file or a directory. -/
def view (tree : Tree) (path : Text) (range : Json) : Except Misfit Reply :=
  match tree.get? path with
  | none => .ok (.nothingToView path)
  | some (.directory children) =>
    .ok (.viewed (listing tree path (children.toList.map Path.baseName)))
  | some (.file (.text content)) => do
    let ls := lines content
    let (start, stop) ← rangeBounds ls.length range
    return .viewed (unlines (shownLines ls start stop))
  | some (.file content) => .error (.content content)

/-! ## §3. Editing -/

/-- Create a file. -/
def create (project : Project) (path : Text) (content : Json) : Reply × Project :=
  if project.tree.has path then (.failed (.fileExists path), project)
  else
    match project.edit (·.createFile path content) with
    | (.ok _, project) => (.created path, project)
    | (.error e, project) => (.failed (.rejected e), project)

/-- The content of a file that can be edited. -/
def editable (tree : Tree) (path : Text) : Except Failure Json :=
  match tree.get? path with
  | none => .error (.fileNotFound path)
  | some (.directory _) => .error (.isADirectory path)
  | some (.file content) => .ok content

/-- Give a file a new content. -/
def overwrite (project : Project) (path content : Text) (reply : Reply) : Reply × Project :=
  match project.edit (·.writeFile path (.text content)) with
  | (.ok _, project) => (reply, project)
  | (.error e, project) => (.failed (.rejected e), project)

/-- The content of a file as a text. -/
def contentText : Json → Except Misfit Text
  | .text content => .ok content
  | content => .error (.content content)

/-- The value as it stands in a sentence: a text as it is, any other value as messages show it. -/
def spoken : Json → Text
  | .text s => s
  | value => value.shown

/-- Replace every occurrence of a text in a text. -/
def replaceInText (project : Project) (path content : Text) (old new : Json) :
    Except Misfit (Reply × Project) := do
  let pattern ← textOr .pattern old
  let count := occurrences pattern content
  if count = 0 then return (.failed (.patternNotFound pattern), project)
  else
    let replacement ← textOr .replacement new
    return overwrite project path (replaceAll pattern replacement content) (.replaced count path)

/-- Replace every occurrence of a text in a content.  The empty text never occurs, and an array
has items to look among, but none of them can be replaced. -/
def replaceIn (project : Project) (path : Text) (content old new : Json) :
    Except Misfit (Reply × Project) :=
  if !old.isFilled then .ok (.failed (.patternNotFound ""), project)
  else
    match content with
    | .text text => replaceInText project path text old new
    | .array items =>
      if items.any old.agrees then .error (.content content)
      else .ok (.failed (.patternNotFound (spoken old)), project)
    | _ => .error (.content content)

/-- Insert a text behind a line of a content. -/
def insertIn (project : Project) (path : Text) (content line new : Json) :
    Except Misfit (Reply × Project) := do
  let ls := lines (← contentText content)
  let line := if line.isFilled then line else .int 0
  match isBelow? 0 line, isAbove? ls.length line with
  | some false, some false =>
    let k ← lineNumber line
    let text ← textOr (.insertedText k) new
    let inserted := ls.take k.toNat ++ text :: ls.drop k.toNat
    return overwrite project path (unlines inserted) (.inserted line path)
  | some _, some _ => return (.failed (.noSuchLine line ls.length), project)
  | _, _ => throw (.lineNumber line)

/-- Edit the content of a file. -/
def editContent (project : Project) (path : Text)
    (f : Json → Except Misfit (Reply × Project)) : Except Misfit (Reply × Project) :=
  match editable project.tree path with
  | .error failure => .ok (.failed failure, project)
  | .ok content => f content

/-- The content that is given for a new file: a text that is not given is empty, and any other
value is taken as it is. -/
def givenContent (value : Json) : Json :=
  if value.isFilled then value else .text ""

/-- Run a command on a path in normal form. -/
def run (project : Project) (command path : Text) (arguments : Json) :
    Except Misfit (Reply × Project) :=
  match command.string? with
  | some "view" => (view project.tree path (argument arguments "view_range")).map (·, project)
  | some "create" => .ok (create project path (givenContent (argument arguments "file_text")))
  | some "str_replace" =>
    editContent project path fun content =>
      replaceIn project path content (argument arguments "old_str")
        (argument arguments "new_str")
  | some "insert" =>
    editContent project path fun content =>
      insertIn project path content (argument arguments "insert_line")
        (argument arguments "new_str")
  | some "undo_edit" => .ok (.failed .undoUnsupported, project)
  | _ => .ok (.failed (.unknownCommand command), project)

end LivePreview.Tool.Editor
