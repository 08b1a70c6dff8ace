/-
  LivePreview.Workspace.Basic
  ───────────────────────────
  **A workspace: a project and its live preview.**

  A workspace holds a project, the module cache that its builds use, the registry of
  the references given out to its pages, and the page on screen.
-/
import LivePreview.Preview.Session

namespace LivePreview

open LivePreview.Lowering (Options Parser)
open LivePreview.Preview (Breakdown BuildResult Config Document Session)

/-- A project and its live preview. -/
structure Workspace where
  project : Project
  /-- The number of the module cache that builds use. -/
  cache : Nat
  config : Config
  registry : Module.Registry := .empty
  session : Session := {}

namespace Workspace

/-- A workspace for a project, with a module cache of its own. -/
def start (project : Project) (options : Options) (config : Config) : Workspace :=
  let (cache, project) := project.newCache options
  { project, cache, config }

/-- Apply an operation to the tree. -/
def edit {α : Type} (workspace : Workspace)
    (operation : Tree → Except Tree.Error (Tree.Outcome α)) :
    Except Tree.Error α × Workspace :=
  let (answer, project) := workspace.project.edit operation
  (answer, { workspace with project })

/-- The module of a file. -/
def moduleAt (parser : Parser) (workspace : Workspace) (path : Text) :
    Except Module.Failure Module × Workspace :=
  let (answer, project) := workspace.project.moduleAt parser workspace.cache path
  (answer, { workspace with project })

/-- Build a page. -/
def build (parser : Parser) (workspace : Workspace) (wanted? : Option Text) :
    Except Breakdown BuildResult × Workspace :=
  let (answer, project, registry) :=
    Preview.build parser workspace.config workspace.cache workspace.project
      workspace.registry wanted?
  (answer, { workspace with project, registry })

/-- Begin a build; the answer is its ticket. -/
def begin (workspace : Workspace) : Nat × Workspace :=
  let (ticket, session) := workspace.session.begin
  (ticket, { workspace with session })

/-- Take the result of the build with a ticket. -/
def accept (workspace : Workspace) (ticket : Nat) (result : BuildResult) : Bool × Workspace :=
  let (current, session, registry) :=
    workspace.session.accept workspace.registry ticket result
  (current, { workspace with session, registry })

/-- Give back the references of a document. -/
def release (workspace : Workspace) (document : Document) : Workspace :=
  { workspace with registry := Preview.release workspace.registry document }

/-- Build a page and put it on screen. -/
def refresh (parser : Parser) (workspace : Workspace) (wanted? : Option Text) :
    Except Breakdown BuildResult × Workspace :=
  let (ticket, begun) := workspace.begin
  match begun.build parser wanted? with
  | (.ok result, built) => (.ok result, (built.accept ticket result).2)
  | (.error breakdown, built) => (.error breakdown, built)

/-- Take the page off the screen. -/
def closeSession (workspace : Workspace) : Workspace :=
  let (session, registry) := workspace.session.close workspace.registry
  { workspace with session, registry }

/-- Drop the entries of the module cache and let it listen no more. -/
def closeCache (workspace : Workspace) : Workspace :=
  { workspace with project := workspace.project.closeCache workspace.cache }

/-- Take the page off the screen and let the module cache listen no more. -/
def close (workspace : Workspace) : Workspace :=
  workspace.closeSession.closeCache

end Workspace

end LivePreview
