/-
  LivePreview.Workspace.Store
  ───────────────────────────
  **The workspaces of a server.**

  A store holds workspaces by id, in the order of their creation, up to a limit.  The
  ids come from outside and are taken to be new.  A workspace is closed when it leaves
  the store.
-/
import LivePreview.Workspace.Basic

namespace LivePreview.Workspace

open LivePreview.Lowering (Parser)
open LivePreview.Preview (Breakdown BuildResult Config)

/-- The workspaces of a server. -/
structure Store where
  /-- How many workspaces there may be. -/
  limit : Int := 100
  /-- The configuration of all previews. -/
  config : Config := {}
  /-- The entry of previews that ask for none, where it exists. -/
  entryPath : Text := "/App.jsx"
  workspaces : List (String × Workspace) := []

/-- Why there is no new workspace. -/
inductive CreateFault where
  | limitReached (limit : Int)
  | rejected (error : Tree.Error)

/-- The wording of a fault. -/
def CreateFault.message : CreateFault → Text
  | .limitReached limit => "Workspace limit of " ++ toString limit ++ " reached"
  | .rejected error => error.message

namespace Store

/-- The workspace with an id. -/
def get? (store : Store) (id : String) : Option Workspace :=
  store.workspaces.lookup id

/-- Put a workspace in place of the one with its id. -/
def set (store : Store) (id : String) (workspace : Workspace) : Store :=
  { store with workspaces := store.workspaces.map fun (key, value) =>
      if key = id then (key, workspace) else (key, value) }

/-- The project that a new workspace starts with. -/
def seed : Option Tree.Snapshot → Except Tree.Error Project
  | none => .ok {}
  | some snapshot => (Tree.ofSnapshot snapshot).map fun tree => { tree }

/-- Create a workspace under a new id, empty or from a snapshot. -/
def create (store : Store) (id : String) (snapshot? : Option Tree.Snapshot) :
    Except CreateFault Workspace × Store :=
  if store.limit ≤ store.workspaces.length then
    (.error (.limitReached store.limit), store)
  else
    match seed snapshot? with
    | .error e => (.error (.rejected e), store)
    | .ok project =>
      let workspace := start project {} store.config
      (.ok workspace, { store with workspaces := store.workspaces ++ [(id, workspace)] })

/-- Close the workspace with an id and take it out of the store; the answer is the closed
workspace. -/
def delete (store : Store) (id : String) : Option Workspace × Store :=
  match store.get? id with
  | none => (none, store)
  | some workspace =>
    (some workspace.close,
      { store with workspaces := store.workspaces.filter fun (key, _) => key != id })

/-- Close all workspaces; the answer is what they are then. -/
def clear (store : Store) : List Workspace × Store :=
  (store.workspaces.map fun (_, workspace) => workspace.close, { store with workspaces := [] })

/-- The entry that a preview of a workspace starts with: the one that is asked for, or else the
configured one if it exists. -/
def entryFor (store : Store) (workspace : Workspace) (wanted? : Option Text) :
    Option Text :=
  match wanted? with
  | some path => some path
  | none => if workspace.project.tree.isFile store.entryPath then some store.entryPath else none

/-- Build the page of a workspace and put it on screen. -/
def preview (parser : Parser) (store : Store) (id : String) (workspace : Workspace)
    (wanted? : Option Text) : Except Breakdown BuildResult × Store :=
  let (answer, workspace) :=
    workspace.refresh parser (store.entryFor workspace wanted?)
  (answer, store.set id workspace)

end Store

end LivePreview.Workspace
