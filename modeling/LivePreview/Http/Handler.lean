/-
  LivePreview.Http.Handler
  ────────────────────────
  **What the server does when it is called.**

  A call names one of the things that the server does, and gives the parts of the path,
  the parameters and the fields of the body that it needs (`Call`).  Where there is a
  workspace to be named, it is looked up first.  A handler returns a report, a value, a
  page or a refusal (`Outcome`), or it breaks down (`Breakdown`).  It says itself which
  status the response is to have.
-/
import LivePreview.Command
import LivePreview.Json.Encodable
import LivePreview.Tool.Call
import LivePreview.Workspace.Store

namespace LivePreview.Http

open LivePreview.Lowering (Parser)
open LivePreview.Workspace (Store)

/-! ## §1. Calls -/

/-- A file command as it comes in a request. -/
structure CommandRequest where
  op : String
  path : Text
  content? : Option Text := none
  newPath? : Option Text := none

/-- The command that is run for a request. -/
def CommandRequest.command (request : CommandRequest) : Command :=
  { operation := request.op, path := .text request.path, content? := request.content?,
    newPath? := request.newPath? }

/-- What the server is called for. -/
inductive Call where
  | checkHealth
  | createWorkspace (snapshot? : Option Json.Fields)
  | deleteWorkspace (id : String)
  | listFiles (id : String)
  | readSnapshot (id : String)
  | replaceSnapshot (id : String) (snapshot : Json.Fields)
  | runCommand (id : String) (request : CommandRequest)
  | callTool (id name : String) (arguments : Json.Fields)
  | showPreview (id : String) (wanted? : Option Text)

/-! ## §2. Outcomes -/

/-- What is reported of the server, of a workspace, or of the call of a tool. -/
inductive Report where
  | healthy
  | workspace (id : String) (paths : List Text) (revision : Nat)
  | deleted
  | files (contents : Json.Fields) (revision : Nat)
  | snapshot (entries : Json.Fields) (revision : Nat)
  | tool (label : Text) (result : Json)

/-- A report as a value. -/
def Report.toJson : Report → Json
  | .healthy => .object [("status", .text "ok")]
  | .workspace id paths revision =>
    .object [("id", .text id), ("files", .array (paths.map .text)), ("revision", .int revision)]
  | .deleted => .object [("deleted", .bool true)]
  | .files contents revision =>
    .object [("files", .object contents), ("revision", .int revision)]
  | .snapshot entries revision =>
    .object [("snapshot", .object entries), ("revision", .int revision)]
  | .tool label result => .object [("label", .text label), ("result", result)]

/-- What a handler returns. -/
inductive Outcome where
  | report (status : Nat) (told : Report)
  | value (status : Nat) (told : Json)
  | page (html : Text)
  | refused (status : Nat) (detail : Text)

/-- The status that a handler gives to its response. -/
def Outcome.status : Outcome → Nat
  | .report status _ | .value status _ | .refused status _ => status
  | .page _ => 200

/-- What the content of a response has to tell, as a value. -/
def Outcome.toJson : Outcome → Json
  | .report _ told => told.toJson
  | .value _ told => told
  | .page html => .text html
  | .refused _ detail => .object [("detail", .text detail)]

/-- The values in a report are of the types that it is to have. -/
def Report.isTyped : Report → Bool
  | .files contents _ => contents.all fun (_, content) => content.text?.isSome
  | .tool _ (.text _) | .tool _ (.object _) => true
  | .tool _ _ => false
  | _ => true

/-- All values in what a handler returns are such as are expected there. -/
def Outcome.isPlain : Outcome → Bool
  | .report _ told => told.isTyped
  | .value _ told => told.isStandard
  | .page _ | .refused _ _ => true

/-- How the answer to a request breaks down. -/
inductive Breakdown where
  /-- The request has a target that cannot be sent. -/
  | target (text : String)
  | preview (breakdown : Preview.Breakdown)
  /-- A tool was given a value that it cannot use, and the caller cannot be told. -/
  | tool (misfit : Tool.Misfit)
  /-- A listed file holds no text. -/
  | fileNotText (path : Text)
  /-- A command fails in a way that has no status. -/
  | noStatus (kind : Command.FailureKind)
  /-- A value of the answer holds a number that JSON has no word for. -/
  | notStandard
  /-- A text of the answer holds half of a surrogate pair. -/
  | notEncodable
  /-- What is reported holds half of a surrogate pair, or lies too deep. -/
  | notTold

/-- What a handler comes to. -/
abbrev Handled := Except Breakdown Outcome

/-- Refuse a request, and tell why. -/
def refuse (status : Nat) (detail : Text) : Handled :=
  .ok (.refused status detail)

/-- Report with a status. -/
def respond (status : Nat) (report : Report) : Handled :=
  .ok (.report status report)

/-- Go on with the workspace that a request names, or refuse the request. -/
def withWorkspace (store : Store) (id : String) (f : Workspace → Handled × Store) : Handled × Store :=
  match store.get? id with
  | some workspace => f workspace
  | none => (refuse 404 "Workspace not found.", store)

/-! ## §3. Trees -/

/-- A workspace as it is reported when it has been created. -/
def summary (id : String) (workspace : Workspace) : Report :=
  .workspace id (workspace.project.tree.files.map Prod.fst) workspace.project.revision

/-- Create a workspace. -/
def createWorkspace (store : Store) (newId : String) (snapshot? : Option Json.Fields) :
    Handled × Store :=
  match store.create newId (snapshot?.map Tree.Snapshot.ofFields) with
  | (.ok workspace, store) => (respond 201 (summary newId workspace), store)
  | (.error (.limitReached limit), store) =>
    (refuse 429 (Workspace.CreateFault.limitReached limit).message, store)
  | (.error (.rejected e), store) => (refuse 422 e.message, store)

/-- Delete a workspace. -/
def deleteWorkspace (store : Store) (id : String) : Handled × Store :=
  match store.delete id with
  | (some _, store) => (respond 200 .deleted, store)
  | (none, store) => (refuse 404 "Workspace not found.", store)

/-- The files of a workspace. -/
def listFiles (workspace : Workspace) : Handled :=
  respond 200 (.files workspace.project.tree.files workspace.project.revision)

/-- The snapshot of a workspace. -/
def readSnapshot (workspace : Workspace) : Handled :=
  respond 200 (.snapshot workspace.project.tree.serialize workspace.project.revision)

/-- Put the tree of a snapshot in place of that of a workspace. -/
def replaceSnapshot (store : Store) (id : String) (workspace : Workspace)
    (snapshot : Tree.Snapshot) : Handled × Store :=
  match workspace.edit (·.replace snapshot) with
  | (.ok _, workspace) => (readSnapshot workspace, store.set id workspace)
  | (.error e, _) => (refuse 422 e.message, store)

/-! ## §4. Commands and tools -/

/-- The status of a response that tells of a failed command. -/
def failureStatus? : Command.FailureKind → Option Nat
  | .invalidCommand => some 422
  | .rejected .notFound => some 404
  | .rejected .alreadyExists => some 409
  | .rejected .typeMismatch => some 409
  | .rejected .invalidOperation => some 400
  | .rejected .invalidSnapshot => none

/-- What is returned with a reply. -/
def handledReply (reply : Command.Reply) : Handled :=
  match reply with
  | .ok _ => .ok (.value 200 reply.toJson)
  | .error failure =>
    match failureStatus? failure.kind with
    | some status => .ok (.value status reply.toJson)
    | none => .error (.noStatus failure.kind)

/-- Run a command. -/
def runCommand (store : Store) (id : String) (workspace : Workspace) (command : Command) :
    Handled × Store :=
  let (reply, project) := Command.run workspace.project command
  (handledReply reply, store.set id { workspace with project })

/-- What is returned for a call of a tool that cannot be run. -/
def handledFault : Tool.CallFault → Handled
  | .misfit (.path value) => .error (.tool (.path value))
  | .misfit (.content value) => .error (.tool (.content value))
  | .misfit (.lineRange (.object fields)) => .error (.tool (.lineRange (.object fields)))
  | fault => refuse 422 fault.message

/-- Call a tool. -/
def callTool (store : Store) (id name : String) (workspace : Workspace)
    (arguments : Json.Fields) : Handled × Store :=
  if (Tool.ofName? name).isNone then (refuse 404 ("Unknown tool: " ++ name), store)
  else
    match Tool.call workspace.project name (.object arguments) with
    | .error fault => (handledFault fault, store)
    | .ok (reply, project) =>
      let store := store.set id { workspace with project }
      match Tool.label name (.object arguments) with
      | .ok label => (respond 200 (.tool label reply.toJson), store)
      | .error misfit => (.error (.tool misfit), store)

/-! ## §5. Previews -/

/-- What is returned with the result of a build. -/
def handledBuild (result : Preview.BuildResult) : Handled :=
  match result.outcome with
  | .ok document => .ok (.page document.html)
  | .error e => .ok (.value 422 (.object [("error", e.toJson)]))

/-- Build and show the page of a workspace. -/
def showPreview (parser : Parser) (store : Store) (id : String) (workspace : Workspace)
    (wanted? : Option Text) : Handled × Store :=
  match store.preview parser id workspace wanted? with
  | (.ok result, store) => (handledBuild result, store)
  | (.error breakdown, store) => (.error (.preview breakdown), store)

/-! ## §6. Every call -/

/-- Do what the server is called for; a workspace that is created gets the given id. -/
def handle (parser : Parser) (newId : String) (store : Store) : Call → Handled × Store
  | .checkHealth => (respond 200 .healthy, store)
  | .createWorkspace snapshot? => createWorkspace store newId snapshot?
  | .deleteWorkspace id => deleteWorkspace store id
  | .listFiles id => withWorkspace store id fun workspace => (listFiles workspace, store)
  | .readSnapshot id => withWorkspace store id fun workspace => (readSnapshot workspace, store)
  | .replaceSnapshot id snapshot =>
    withWorkspace store id fun workspace =>
      replaceSnapshot store id workspace (Tree.Snapshot.ofFields snapshot)
  | .runCommand id request =>
    withWorkspace store id fun workspace => runCommand store id workspace request.command
  | .callTool id name arguments =>
    withWorkspace store id fun workspace => callTool store id name workspace arguments
  | .showPreview id wanted? =>
    withWorkspace store id fun workspace => showPreview parser store id workspace wanted?

end LivePreview.Http
