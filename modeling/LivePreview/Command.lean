/-
  LivePreview.Command
  ───────────────────
  **File commands: one operation on a project, written down.**

  A command names an operation and gives its arguments.  Running it always yields a
  reply (`Reply`), whose form is the same for every operation (`Reply.toJson`): the
  answer, or the kind and the wording of a failure.
-/
import LivePreview.Project

namespace LivePreview

/-- The operations that a command can name. -/
inductive Operation where
  | createFile
  | createDirectory
  | readFile
  | writeFile
  | deleteNode
  | renameNode
  | exists
  | listDirectory
  deriving DecidableEq, Repr

/-- All operations. -/
def Operation.all : List Operation :=
  [.createFile, .createDirectory, .readFile, .writeFile, .deleteNode, .renameNode, .exists,
    .listDirectory]

/-- The name of an operation. -/
def Operation.name : Operation → String
  | .createFile => "create_file"
  | .createDirectory => "create_directory"
  | .readFile => "read_file"
  | .writeFile => "write_file"
  | .deleteNode => "delete_node"
  | .renameNode => "rename_node"
  | .exists => "exists"
  | .listDirectory => "list_directory"

/-- The operation with a name. -/
def Operation.ofName? (name : String) : Option Operation :=
  Operation.all.find? (·.name == name)

/-- A command. -/
structure Command where
  operation : String
  /-- The path; a caller may have put any value here. -/
  path : Json
  content? : Option Text := none
  newPath? : Option Text := none

namespace Command

/-- Why a command cannot be run. -/
inductive Flaw where
  | unknownOperation (name : String)
  | pathNotText
  | contentMissing
  | newPathMissing
  deriving DecidableEq, Repr

/-- The wording of a flaw. -/
def Flaw.message : Flaw → String
  | .unknownOperation name => "Unknown operation: " ++ name
  | .pathNotText => "path must be a string"
  | .contentMissing => "write_file requires content"
  | .newPathMissing => "rename_node requires new_path"

/-- How a command fails. -/
inductive Failure where
  | flawed (flaw : Flaw)
  | rejected (error : Tree.Error)

/-- The kinds of failures. -/
inductive FailureKind where
  | invalidCommand
  | rejected (kind : Tree.ErrorKind)
  deriving DecidableEq, Repr

/-- The kind of a failure. -/
def Failure.kind : Failure → FailureKind
  | .flawed _ => .invalidCommand
  | .rejected error => .rejected error.kind

/-- The word for a kind of failure. -/
def FailureKind.word : FailureKind → String
  | .invalidCommand => "invalid_command"
  | .rejected kind => kind.word

/-- The wording of a failure. -/
def Failure.message : Failure → Text
  | .flawed flaw => flaw.message
  | .rejected error => error.message

/-- The path that a failure is about. -/
def Failure.path? : Failure → Option Text
  | .flawed _ => none
  | .rejected error => error.path?

/-- What an operation answers. -/
inductive Answer where
  | path (path : Text)
  | content (content : Json)
  | entries (paths : List Text)
  | exists (holds : Bool)

/-- What a command yields. -/
abbrev Reply := Except Failure Answer

/-- A reply as a value with one field for each part that a reply may have. -/
def Reply.toJson : Reply → Json
  | .error failure => fields false (.text failure.kind.word) (.text failure.message) .null []
      .null ((failure.path?.map .text).getD .null)
  | .ok (.path path) => fields true .null .null .null [] .null (.text path)
  | .ok (.content content) => fields true .null .null content [] .null .null
  | .ok (.entries paths) => fields true .null .null .null paths .null .null
  | .ok (.exists holds) => fields true .null .null .null [] (.bool holds) .null
where
  fields (success : Bool) (kind message content : Json) (entries : List Text)
      (present path : Json) : Json :=
    .object [("success", .bool success), ("error_kind", kind), ("message", message),
      ("content", content), ("entries", .array (entries.map .text)), ("exists", present),
      ("path", path)]

/-! ## §1. Running commands -/

/-- The reply to an operation on a project. -/
def replyOf {α : Type} (f : α → Answer) (result : Except Tree.Error α × Project) :
    Reply × Project :=
  match result with
  | (.ok answer, project) => (.ok (f answer), project)
  | (.error e, project) => (.error (.rejected e), project)

/-- The reply to a question. -/
def replyTo {α : Type} (project : Project) (f : α → Answer) (result : Except Tree.Error α) :
    Reply × Project :=
  replyOf f (result, project)

/-- Run an operation on a path. -/
def runAt (project : Project) (command : Command) (path : Text) :
    Operation → Reply × Project
  | .createFile =>
    replyOf .path (project.edit (·.createFile path (.text (command.content?.getD ""))))
  | .createDirectory => replyOf .path (project.edit (·.createDirectory path))
  | .readFile => replyTo project .content (project.tree.read path)
  | .writeFile =>
    match command.content? with
    | some content => replyOf .path (project.edit (·.writeFile path (.text content)))
    | none => (.error (.flawed .contentMissing), project)
  | .deleteNode => replyOf .entries (project.edit (·.delete path))
  | .renameNode =>
    match command.newPath?.filter (!·.isEmpty) with
    | some newPath => replyOf .path (project.edit (·.rename path newPath))
    | none => (.error (.flawed .newPathMissing), project)
  | .exists => (.ok (.exists (project.tree.exists? path)), project)
  | .listDirectory => replyTo project .entries (project.tree.list path)

/-- Run a command. -/
def run (project : Project) (command : Command) : Reply × Project :=
  match Operation.ofName? command.operation, command.path with
  | none, _ => (.error (.flawed (.unknownOperation command.operation)), project)
  | some operation, .text path => runAt project command path operation
  | some _, _ => (.error (.flawed .pathNotText), project)

end Command

end LivePreview
