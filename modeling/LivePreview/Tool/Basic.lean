/-
  LivePreview.Tool.Basic
  ──────────────────────
  **The tools that an assistant can call on a project.**

  A call names a tool and gives its arguments as fields of an object.  A schema tells
  the assistant what to give (`Tool.schema`), but the values of a call are whatever
  the assistant sent: each command asks for the texts and numbers it needs, and a
  value that it cannot use is a misfit (`Misfit`).  A field that is blank counts as
  not given.
-/
import LivePreview.Json.Shown
import LivePreview.Path.Basic
import LivePreview.Text.Basic

namespace LivePreview

/-- The tools. -/
inductive Tool where
  /-- Views, creates and edits files. -/
  | editor
  /-- Renames and deletes. -/
  | manager
  deriving DecidableEq, Repr

namespace Tool

/-- The name of a tool. -/
def name : Tool → String
  | .editor => "str_replace_editor"
  | .manager => "file_manager"

/-- The tool with a name. -/
def ofName? (name : String) : Option Tool :=
  [Tool.editor, Tool.manager].find? (·.name == name)

/-! ## §1. Schemas -/

/-- A field of a given type in a schema. -/
def typed (type : String) (more : Json.Fields := []) : Json :=
  .object (("type", .text type) :: more)

/-- The description of a field in a schema. -/
def described (text : String) : Text × Json :=
  ("description", .text text)

/-- The field of a schema that lists the commands. -/
def commandField (commands : List String) : Text × Json :=
  ("command", typed "string" [("enum", .ofWords commands)])

/-- What an assistant is told about a tool. -/
def schemaOf (tool : Tool) (description : String) (fields : Json.Fields) : Json :=
  .object [("name", .text tool.name), described description,
    ("input_schema", typed "object" [("properties", .object fields),
      ("required", .array [.text "command", .text "path"])])]

/-- The schema of a tool. -/
def schema : Tool → Json
  | .editor => schemaOf .editor
      ("View, create and edit files in the workspace. "
        ++ "view shows a file with line numbers or lists a directory; "
        ++ "create writes a new file (parent directories are created); "
        ++ "str_replace replaces every occurrence of old_str with new_str; "
        ++ "insert adds new_str after line insert_line (0 inserts at the top).")
      [commandField ["view", "create", "str_replace", "insert", "undo_edit"],
        ("path", typed "string" [described "Absolute path, e.g. /App.jsx"]),
        ("file_text", typed "string" [described "Content of the new file (for create)"]),
        ("old_str", typed "string"),
        ("new_str", typed "string"),
        ("insert_line",
          typed "integer" [described "Line after which new_str is inserted (for insert)"]),
        ("view_range", typed "array" [("items", typed "integer"),
          described "[start, end] line numbers, 1-based; end -1 reads to the end"])]
  | .manager => schemaOf .manager
      ("Rename or delete files and directories. "
        ++ "rename moves a node to new_path, creating parent directories; "
        ++ "delete removes a node and everything beneath it.")
      [commandField ["rename", "delete"],
        ("path", typed "string"),
        ("new_path", typed "string" [described "Destination path (for rename)"])]

/-- The schemas of all tools. -/
def schemas : Json :=
  .array [schema .editor, schema .manager]

/-! ## §2. Arguments -/

/-- A value that a command cannot use, and what it was to be used for. -/
inductive Misfit where
  | pattern (value : Json)
  | replacement (value : Json)
  /-- The text to be inserted behind `line` lines. -/
  | insertedText (line : Int) (value : Json)
  | lineNumber (value : Json)
  /-- A line number is a number, but not a whole one. -/
  | fractionalLine
  /-- A range of lines is no list. -/
  | lineRange (value : Json)
  | rangeStart (value : Json)
  | rangeStop (value : Json)
  | path (value : Json)
  /-- The file that the command works on holds no text. -/
  | content (value : Json)
  /-- A field has a name that the tool keeps for itself. -/
  | reservedField (tool : Tool)

/-- What is said of two values that cannot be compared. -/
def incomparable (relation left right : String) : String :=
  "'" ++ relation ++ "' not supported between instances of '" ++ left ++ "' and '" ++ right
    ++ "'"

/-- The wording of a misfit. -/
def Misfit.message : Misfit → String
  | .pattern value => "must be str, not " ++ value.kindWord
  | .replacement value => "replace() argument 2 must be str, not " ++ value.kindWord
  | .insertedText line value =>
    "sequence item " ++ toString line ++ ": expected str instance, " ++ value.kindWord
      ++ " found"
  | .lineNumber value => incomparable "<" value.kindWord "int"
  | .fractionalLine => "'float' object cannot be interpreted as an integer"
  | .lineRange value => "'" ++ value.kindWord ++ "' object is not subscriptable"
  | .rangeStart value => incomparable ">" "int" value.kindWord
  | .rangeStop value => incomparable "<" "int" value.kindWord
  | .path value => "the path is no text: " ++ value.shown
  | .content value => "the content of the file is no text: " ++ value.shown
  | .reservedField tool => tool.name ++ "() got multiple values for argument 'vfs'"

/-- The value of a field, null if it is not given. -/
def argument (arguments : Json) (name : Text) : Json :=
  (arguments.field? name).getD .null

/-- The text that a value is, the empty text if it is blank. -/
def textOr (misfit : Json → Misfit) (value : Json) : Except Misfit Text :=
  match value with
  | .text s => .ok s
  | _ => if value.isFilled then .error (misfit value) else .ok ""

/-- The whole number that a value is; a truth value counts as zero or one. -/
def number? : Json → Option Int
  | .int n => some n
  | .bool b => some (if b then 1 else 0)
  | _ => none

/-- Whether a value is less than a whole number; `none` if it is no number. -/
def isBelow? (n : Int) : Json → Option Bool
  | .double x => some (x.isBelow n)
  | value => (number? value).map (· < n)

/-- Whether a value is greater than a whole number; `none` if it is no number. -/
def isAbove? (n : Int) : Json → Option Bool
  | .double x => some (x.isAbove n)
  | value => (number? value).map (n < ·)

/-- The line number that a value is; a number that is not whole is a misfit. -/
def lineNumber (value : Json) : Except Misfit Int :=
  match number? value with
  | some n => .ok n
  | none => .error .fractionalLine

/-! ## §3. Labels -/

/-- The last segment of a path, or a word in its place if there is none. -/
def shortName (value : Json) (substitute : Text) : Except Misfit Text :=
  match value with
  | .text path => .ok (if path.isEmpty then substitute else Path.baseName path)
  | _ => if value.isFilled then .error (.path value) else .ok substitute

/-- What a call of the editor does, in a few words. -/
def editorLabel (command target : Text) : Text :=
  match command.string? with
  | some "create" => "Creating " ++ target
  | some "view" => "Viewing " ++ target
  | some "str_replace" | some "insert" => "Editing " ++ target
  | some "undo_edit" => "Undoing changes to " ++ target
  | _ => "Modifying " ++ target

/-- What a call of the manager does, in a few words. -/
def managerLabel (command target : Text) (arguments : Json) : Except Misfit Text :=
  match command.string? with
  | some "rename" => do
    let destination ← shortName (argument arguments "new_path") "new location"
    return "Renaming " ++ target ++ " → " ++ destination
  | some "delete" => return "Deleting " ++ target
  | _ => return "Managing " ++ target

/-- What a call does, in a few words. -/
def label (name : String) (arguments : Json) : Except Misfit Text := do
  let target ← shortName (argument arguments "path") "file"
  let command := ((argument arguments "command").text?).getD ""
  match ofName? name with
  | some .editor => return editorLabel command target
  | some .manager => managerLabel command target arguments
  | none => return name

end Tool

end LivePreview
