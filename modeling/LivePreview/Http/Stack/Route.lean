/-
  LivePreview.Http.Stack.Route
  ────────────────────────────
  **What a request asks for.**

  A path names a resource, and a resource allows some methods.  A line feed at the end
  of a path is overlooked where the path names nothing with it.  A path with slashes at
  its end names nothing either, but the sender is told to leave them out if the path
  would name something then (`Routing.moved`).
-/
import LivePreview.Text.Blank

namespace LivePreview.Http.Stack

/-- The resources of the server. -/
inductive Resource where
  | description
  | health
  | workspaces
  | workspace (id : String)
  | files (id : String)
  | snapshot (id : String)
  | commands (id : String)
  | tool (id name : String)
  | preview (id : String)
  deriving DecidableEq, Repr

/-- What can be done with a resource. -/
inductive Action where
  | describe
  | checkHealth
  | createWorkspace
  | deleteWorkspace (id : String)
  | listFiles (id : String)
  | readSnapshot (id : String)
  | replaceSnapshot (id : String)
  | runCommand (id : String)
  | callTool (id name : String)
  | showPreview (id : String)
  deriving DecidableEq, Repr

/-- What becomes of a path. -/
inductive Routing where
  | found (resource : Resource)
  /-- The path names a resource if the slashes at its end are left out. -/
  | moved
  | unknown
  deriving DecidableEq, Repr

/-! ## §1. Resources -/

/-- The resource with the given path segments. -/
def Resource.ofSegments? : List String → Option Resource
  | ["openapi.json"] => some .description
  | ["health"] => some .health
  | ["api", "workspaces"] => some .workspaces
  | ["api", "workspaces", id] => if id.isEmpty then none else some (.workspace id)
  | ["api", "workspaces", id, kind] =>
    if id.isEmpty then none
    else
      match kind with
      | "files" => some (.files id)
      | "snapshot" => some (.snapshot id)
      | "commands" => some (.commands id)
      | "preview" => some (.preview id)
      | _ => none
  | ["api", "workspaces", id, "tools", name] =>
    if id.isEmpty || name.isEmpty then none else some (.tool id name)
  | _ => none

/-- The segments of a path; `none` if it does not start with a slash. -/
def pathSegments? (path : List Char) : Option (List String) :=
  match path.splitOn '/' with
  | [] :: segments => some (segments.map String.ofList)
  | _ => none

/-- The resource whose segments a path has. -/
def Resource.at? (path : List Char) : Option Resource :=
  (pathSegments? path).bind ofSegments?

/-- The path without the line feed at its end; `none` if there is none. -/
def withoutLineFeed? (path : List Char) : Option (List Char) :=
  if path.getLast? == some '\n' then some path.dropLast else none

/-- The resource that a path names. -/
def Resource.ofPath? (path : List Char) : Option Resource :=
  Resource.at? path <|> (withoutLineFeed? path).bind Resource.at?

/-- What becomes of a path. -/
def Routing.ofPath (path : List Char) : Routing :=
  match Resource.ofPath? path with
  | some resource => .found resource
  | none =>
    if path.getLast? == some '/'
        && (Resource.ofPath? (Text.dropEndWhile (· == '/') path)).isSome then .moved
    else .unknown

/-! ## §2. Methods -/

/-- What a method does with a resource, if the resource allows it. -/
def Resource.action? (method : String) : Resource → Option Action
  | .description => if method = "GET" || method = "HEAD" then some .describe else none
  | .health => if method = "GET" then some .checkHealth else none
  | .workspaces => if method = "POST" then some .createWorkspace else none
  | .workspace id => if method = "DELETE" then some (.deleteWorkspace id) else none
  | .files id => if method = "GET" then some (.listFiles id) else none
  | .snapshot id =>
    if method = "GET" then some (.readSnapshot id)
    else if method = "PUT" then some (.replaceSnapshot id)
    else none
  | .commands id => if method = "POST" then some (.runCommand id) else none
  | .tool id name => if method = "POST" then some (.callTool id name) else none
  | .preview id => if method = "GET" then some (.showPreview id) else none

end LivePreview.Http.Stack
