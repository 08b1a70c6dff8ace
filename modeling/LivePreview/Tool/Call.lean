/-
  LivePreview.Tool.Call
  ─────────────────────
  **The manager, and calling a tool by its name.**

  The manager renames and deletes.  A call needs the texts `command` and `path`, and a
  tool of its name; otherwise there is nothing to run, and the caller made the mistake
  (`CallFault`).  All other failures are part of the reply.
-/
import LivePreview.Project
import LivePreview.Tool.Basic
import LivePreview.Tool.Editor

namespace LivePreview.Tool

/-! ## §1. The manager: rename and delete -/

namespace Manager

/-- Why a call of the manager fails. -/
inductive Failure where
  | newPathMissing
  /-- The path cannot be renamed; the cause is not told. -/
  | renameRejected (path newPath : Text)
  | deleteRejected (path : Text)
  | unknownCommand

/-- The wording of a failure. -/
def Failure.message : Failure → Text
  | .newPathMissing => "new_path is required for rename command"
  | .renameRejected path newPath => "Failed to rename " ++ path ++ " to " ++ newPath
  | .deleteRejected path => "Failed to delete " ++ path
  | .unknownCommand => "Invalid command"

/-- What the manager replies. -/
inductive Reply where
  | renamed (path newPath : Text)
  | deleted (path : Text)
  | failed (failure : Failure)

/-- A reply as a value. -/
def Reply.toJson : Reply → Json
  | .renamed path newPath =>
    .object [("success", .bool true),
      ("message", .text ("Successfully renamed " ++ path ++ " to " ++ newPath))]
  | .deleted path =>
    .object [("success", .bool true), ("message", .text ("Successfully deleted " ++ path))]
  | .failed failure => .object [("success", .bool false), ("error", .text failure.message)]

/-- Rename a node. -/
def rename (project : Project) (path newPath : Text) : Reply × Project :=
  match project.edit (·.rename path newPath) with
  | (.ok _, project) => (.renamed path newPath, project)
  | (.error _, project) => (.failed (.renameRejected path newPath), project)

/-- Delete a node. -/
def delete (project : Project) (path : Text) : Reply × Project :=
  match project.edit (·.delete path) with
  | (.ok _, project) => (.deleted path, project)
  | (.error _, project) => (.failed (.deleteRejected path), project)

/-- Run a command on a path. -/
def run (project : Project) (command path : Text) (arguments : Json) :
    Except Misfit (Reply × Project) :=
  match command.string? with
  | some "rename" => do
    let newPath ← textOr .path (argument arguments "new_path")
    return if newPath.isEmpty then (.failed .newPathMissing, project)
      else rename project path newPath
  | some "delete" => .ok (delete project path)
  | _ => .ok (.failed .unknownCommand, project)

end Manager

/-! ## §2. Calls -/

/-- Why a call cannot be run. -/
inductive CallFault where
  | unknownTool (name : String)
  /-- Fields that the tool needs are missing, or are no texts. -/
  | missingFields (tool : Tool) (fields : List String)
  | misfit (misfit : Misfit)

/-- The wording of a fault. -/
def CallFault.message : CallFault → String
  | .unknownTool name => "Unknown tool: " ++ name
  | .missingFields tool fields => tool.name ++ " requires " ++ ", ".intercalate fields
  | .misfit cause => cause.message

/-- What a tool replies. -/
inductive Reply where
  | editor (reply : Editor.Reply)
  | manager (reply : Manager.Reply)

/-- A reply as a value. -/
def Reply.toJson : Reply → Json
  | .editor reply => .text reply.text
  | .manager reply => reply.toJson

/-- The needed fields that are missing or no texts. -/
def missingFields (arguments : Json) : List String :=
  ["command", "path"].filter fun field => (argument arguments field).text?.isNone

/-- Run a tool on the given command and path. -/
def runOn (tool : Tool) (project : Project) (command path : Text) (arguments : Json) :
    Except Misfit (Reply × Project) :=
  if (arguments.field? "vfs").isSome then .error (.reservedField tool)
  else
    match tool with
    | .editor =>
      (Editor.run project command (Path.normalize path) arguments).map fun (reply, project) =>
        (.editor reply, project)
    | .manager =>
      (Manager.run project command path arguments).map fun (reply, project) =>
        (.manager reply, project)

/-- Call a tool by its name. -/
def call (project : Project) (name : String) (arguments : Json) :
    Except CallFault (Reply × Project) :=
  match ofName? name with
  | none => .error (.unknownTool name)
  | some tool =>
    match argument arguments "command", argument arguments "path" with
    | .text command, .text path =>
      (runOn tool project command path arguments).mapError .misfit
    | _, _ => .error (.missingFields tool (missingFields arguments))

end LivePreview.Tool
