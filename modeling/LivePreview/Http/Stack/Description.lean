/-
  LivePreview.Http.Stack.Description
  ──────────────────────────────────
  **What the server tells about itself.**

  The description lists the endpoints of the server by path and method, and the records
  that they take and answer (`description`).  It follows the rules of OpenAPI.  An
  endpoint that takes anything may find that it is not well-formed, and says so.
-/
import LivePreview.Http.Stack.Form
import LivePreview.Http.Stack.Schema

namespace LivePreview.Http.Stack

open Json (fieldIf fieldOf?)

/-! ## §1. Records -/

/-- A record of a request: it has no other fields than those that are named. -/
def formRecord (name description : String) (fields : List Field) : Record :=
  { name, fields, description? := some description, isOpen := false }

/-- The schema of the entries of a tree. -/
def entriesSchema : Schema := .table .any

/-- The field that counts the changes of a project. -/
def revisionField : Field := { name := "revision", schema := .integer }

/-- The records that requests and responses consist of. -/
def records : List Record := [
  formRecord "CommandRequest" "One file command, applied with execute_command." [
    { name := "op", schema := .word (Operation.all.map Operation.name) },
    { name := "path", schema := .text (some 1) (some pathLimit) },
    { name := "content", schema := .orNull .text, isNeeded := false },
    { name := "new_path", schema := .orNull (.text none (some pathLimit)), isNeeded := false }],
  formRecord "CreateWorkspaceRequest" "What the client sends to POST /api/workspaces." [
    { name := "snapshot", schema := .orNull entriesSchema, isNeeded := false }],
  { name := "FilesResponse"
    fields := [{ name := "files", schema := .table .text }, revisionField] },
  { name := "HTTPValidationError"
    fields := [
      { name := "detail", schema := .array (.record "ValidationError"), isNeeded := false }] },
  formRecord "SnapshotRequest" "Replace the whole tree." [
    { name := "snapshot", schema := entriesSchema }],
  { name := "SnapshotResponse"
    fields := [{ name := "snapshot", schema := entriesSchema }, revisionField] },
  formRecord "ToolRequest" "Arguments for one editing tool call." [
    { name := "arguments", schema := entriesSchema }],
  { name := "ToolResponse"
    fields := [{ name := "label", schema := .text },
      { name := "result", schema := .either .text entriesSchema }] },
  { name := "ValidationError"
    fields := [
      { name := "loc", schema := .array (.either .text .integer), title? := some "Location" },
      { name := "msg", schema := .text, title? := some "Message" },
      { name := "type", schema := .text, title? := some "Error Type" },
      { name := "input", schema := .any, isNeeded := false },
      { name := "ctx", schema := .object, isNeeded := false, title? := some "Context" }] },
  { name := "WorkspaceResponse"
    fields := [{ name := "id", schema := .text }, { name := "files", schema := .array .text },
      revisionField] }]

/-! ## §2. Endpoints -/

/-- What an endpoint answers if all goes well. -/
inductive Answered where
  | anything
  | page
  | record (name : String)
  | value (schema : Schema)
  deriving DecidableEq, Repr

/-- A parameter of an endpoint. -/
structure Parameter where
  name : String
  schema : Schema := .text
  /-- The parameter is a part of the path, and so always there. -/
  isInPath : Bool := true
  deriving DecidableEq, Repr

/-- A method of a path. -/
structure Endpoint where
  name : String
  method : String
  path : String
  answered : Answered
  status : Nat := 200
  parameters : List Parameter := []
  /-- The name of the record that the body of a request has to be. -/
  form? : Option String := none
  description? : Option String := none
  tags : List String := ["workspaces"]
  deriving DecidableEq, Repr

namespace Endpoint

/-- The name of an endpoint among all endpoints: its name, path and method, with underscores in
place of what is neither letter nor digit. -/
def id (endpoint : Endpoint) : String :=
  (endpoint.name ++ endpoint.path).map (fun c => if c.isAlphanum then c else '_') ++ "_"
    ++ endpoint.method

/-- The parameter as a value. -/
def parameterJson (parameter : Parameter) : Json :=
  .object [("name", .text parameter.name),
    ("in", .text (if parameter.isInPath then "path" else "query")),
    ("required", .bool parameter.isInPath),
    ("schema", parameter.schema.titled (titleOf parameter.name))]

/-- Content of some type with a schema. -/
def contentJson (type : String) (schema : Json) : Json :=
  .object [(type, .object [("schema", schema)])]

/-- What an endpoint answers if all goes well, as content. -/
def answeredJson (endpoint : Endpoint) : Json :=
  match endpoint.answered with
  | .anything => contentJson "application/json" Schema.any.toJson
  | .page => contentJson "text/html" Schema.text.toJson
  | .record name => contentJson "application/json" (Schema.record name).toJson
  | .value schema =>
    contentJson "application/json" (schema.titled (titleOf ("response_" ++ endpoint.id)))

/-- A response with content. -/
def responseJson (description : String) (content : Json) : Json :=
  .object [("description", .text description), ("content", content)]

/-- The responses of an endpoint by status. -/
def responses (endpoint : Endpoint) : Json.Fields :=
  (toString endpoint.status, responseJson "Successful Response" endpoint.answeredJson) ::
    fieldIf (!endpoint.parameters.isEmpty || endpoint.form?.isSome) "422"
      (responseJson "Validation Error"
        (contentJson "application/json" (Schema.record "HTTPValidationError").toJson))

/-- The endpoint as a value. -/
def toJson (endpoint : Endpoint) : Json :=
  let always : Json.Fields := [("summary", .text (titleOf endpoint.name)),
    ("operationId", .text endpoint.id), ("responses", .object endpoint.responses)]
  .object (always
    ++ fieldIf (!endpoint.tags.isEmpty) "tags" (.ofWords endpoint.tags)
    ++ fieldOf? "description" endpoint.description? (fun text => .text text)
    ++ fieldIf (!endpoint.parameters.isEmpty) "parameters"
      (.array (endpoint.parameters.map parameterJson))
    ++ fieldOf? "requestBody" endpoint.form? fun name =>
      .object [("required", .bool true),
        ("content", contentJson "application/json" (Schema.record name).toJson)])

end Endpoint

/-- The parameter that names a workspace. -/
def idParameter : Parameter := { name := "workspace_id" }

/-- The path of all workspaces. -/
def workspacesPath : String := "/api/workspaces"

/-- The path of a part of a workspace. -/
def workspacePath (part : String) : String :=
  workspacesPath ++ "/\x7bworkspace_id\x7d" ++ part

/-- The endpoints of the server. -/
def endpoints : List Endpoint := [
  { name := "create_workspace", method := "post", path := workspacesPath, status := 201
    form? := some "CreateWorkspaceRequest", answered := .record "WorkspaceResponse"
    description? := some "Create a workspace, empty or seeded from a snapshot." },
  { name := "delete_workspace", method := "delete", path := workspacePath ""
    parameters := [idParameter], answered := .value (.table .boolean) },
  { name := "list_files", method := "get", path := workspacePath "/files"
    parameters := [idParameter], answered := .record "FilesResponse" },
  { name := "get_snapshot", method := "get", path := workspacePath "/snapshot"
    parameters := [idParameter], answered := .record "SnapshotResponse" },
  { name := "replace_snapshot", method := "put", path := workspacePath "/snapshot"
    parameters := [idParameter], form? := some "SnapshotRequest"
    answered := .record "SnapshotResponse"
    description? := some
      "Replace the whole tree. A rejected snapshot leaves the workspace unchanged." },
  { name := "run_command", method := "post", path := workspacePath "/commands"
    parameters := [idParameter], form? := some "CommandRequest", answered := .anything },
  { name := "call_tool", method := "post", path := workspacePath "/tools/\x7btool_name\x7d"
    parameters := [idParameter, { name := "tool_name" }], form? := some "ToolRequest"
    answered := .record "ToolResponse"
    description? := some
      ("Run one editing tool. Tool-level failures are part of the result, "
        ++ "not HTTP errors.") },
  { name := "get_preview", method := "get", path := workspacePath "/preview"
    parameters := [idParameter,
      { name := "entry", schema := .orNull .text, isInPath := false }]
    answered := .page
    description? := some
      ("Build and serve the preview document.\n\n"
        ++ "A failed build returns 422 with the build error; the session keeps the\n"
        ++ "last good document for the next successful request.") },
  { name := "health", method := "get", path := "/health", answered := .anything, tags := []
    description? := some "Health check endpoint for uptime monitoring." }]

/-! ## §3. The description -/

/-- Add an endpoint to those of its path. -/
def addEndpoint (paths : Table Json.Fields) (endpoint : Endpoint) : Table Json.Fields :=
  paths.insert endpoint.path
    (((paths.get? endpoint.path).getD []).concat (endpoint.method, endpoint.toJson))

/-- The description of the server. -/
def description : Json :=
  .object [("openapi", .text "3.1.0"),
    ("info", .object [("title", .text "Workbench"), ("version", .text "0.1.0")]),
    ("paths", .object ((endpoints.foldl addEndpoint []).map fun (path, methods) =>
      (path, .object methods))),
    ("components", .object [("schemas",
      .object (records.map fun record => (record.name, record.toJson)))])]

end LivePreview.Http.Stack
