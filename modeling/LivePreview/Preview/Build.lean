/-
  LivePreview.Preview.Build
  ─────────────────────────
  **Building the page of a project.**

  A build selects the entry, collects the modules it needs, links them, and gives out
  a reference for each.  It ends with a document or with an error
  (`BuildResult.outcome`), and in both cases tells the revision of the project that
  it was made from.  References are given out only when every module is there.

  The literals of a code are linked from its back to its front, so that the places of
  those still to be replaced stay what they are.
-/
import LivePreview.Module.Basic
import LivePreview.Module.Registry
import LivePreview.Preview.Graph
import LivePreview.Preview.Page
import LivePreview.Project
import LivePreview.Table

namespace LivePreview.Preview

open LivePreview.Lowering (Parser Site)
open LivePreview.Module (Registry)

/-- A page and what it consists of. -/
structure Document where
  html : Text
  entry : Text
  /-- The files of the modules, each behind what it needs. -/
  modules : List Text
  /-- The URLs of externals by specifier. -/
  externals : Table Text
  /-- The references of modules by id. -/
  references : Table String
  /-- The revision of the project. -/
  revision : Nat
  deriving DecidableEq, Repr

/-- What a build ends with. -/
structure BuildResult where
  outcome : Except BuildError Document
  revision : Nat

/-- The document of a result. -/
def BuildResult.document? (result : BuildResult) : Option Document :=
  result.outcome.toOption

/-! ## §1. Module ids in place of local specifiers -/

/-- Put a text in place of what stands from one place of a code to another. -/
def splice (code : List CodePoint) (start stop : Nat) (text : Text) : List CodePoint :=
  code.take start ++ text.points ++ code.drop stop

/-- Link the literal at one site: a specifier that names a file becomes the id of its module. -/
def linkSite (targets : Table Text) (code : List CodePoint) (site : Site) :
    List CodePoint :=
  match targets.get? site.specifier with
  | some target => splice code site.start site.stop (Json.literal (Module.idOf target))
  | none => code

/-- The sites from the back of the code to the front. -/
def backToFront (sites : List Site) : List Site :=
  sites.mergeSort fun a b => b.start ≤ a.start

/-- The code with the ids of modules in place of the specifiers that name files. -/
def link (code : Text) (sites : List Site) (targets : Table Text) : Text :=
  ⟨(backToFront sites).foldl (linkSite targets) code.points⟩

/-! ## §2. Publishing -/

/-- The linked code of a file of a graph. -/
def linkedCode (graph : Graph) (path : Text) : Text :=
  match graph.modules.get? path with
  | some found => link found.code found.sites ((graph.targets.get? path).getD [])
  | none => ""

/-- Give out the references to the modules of some files; they are entered into a table by the id
of the module.  A module whose code cannot be encoded ends this, after those in front of it. -/
def publish (graph : Graph) : List Text → Table String × Registry →
    Except Breakdown (Table String) × Registry
  | [], (references, registry) => (.ok references, registry)
  | path :: paths, (references, registry) =>
    match (linkedCode graph path).string?, path.string? with
    | some code, some name =>
      let (reference, registry) := registry.register code (some name)
      publish graph paths (references.insert (Module.idOf path) reference, registry)
    | _, _ => (.error (.unencodable path), registry)

/-- The document of a graph whose modules have the given references. -/
def documentWith (config : Config) (entry : Text) (revision : Nat) (graph : Graph)
    (references : Table String) : Except Breakdown Document :=
  match page config entry references graph.externals with
  | .ok html => .ok
    { html, entry, modules := graph.order, externals := graph.externals, references, revision }
  | .error fault => .error (.url fault)

/-- Make the document of a graph. -/
def documentOf (config : Config) (entry : Text) (revision : Nat) (graph : Graph)
    (registry : Registry) : Except Breakdown Document × Registry :=
  let (references, registry) := publish graph graph.order ([], registry)
  (references >>= documentWith config entry revision graph, registry)

/-! ## §3. Building -/

/-- Select the entry and collect the modules it needs. -/
def plan (setting : Setting) (wanted? : Option Text) : Walk (Text × Graph) := do
  let entry ← resolved (selectEntry setting.tree setting.config wanted?)
  return (entry, ← collect setting entry)

/-- What a build answers, and the registry and the module cache behind it. -/
structure Built where
  answer : Except Breakdown BuildResult
  registry : Registry
  cache : Module.Cache

/-- Build the page of a tree at a revision. -/
def buildTree (setting : Setting) (revision : Nat) (registry : Registry)
    (cache : Module.Cache) (wanted? : Option Text) : Built :=
  match (plan setting wanted?).run.run cache with
  | (.error (.breakdown breakdown), cache) => ⟨.error breakdown, registry, cache⟩
  | (.error (.error error), cache) => ⟨.ok ⟨.error error, revision⟩, registry, cache⟩
  | (.ok (entry, graph), cache) =>
    match documentOf setting.config entry revision graph registry with
    | (.ok document, registry) => ⟨.ok ⟨.ok document, revision⟩, registry, cache⟩
    | (.error breakdown, registry) => ⟨.error breakdown, registry, cache⟩

/-- Build the page of a project, by way of one of its module caches. -/
def build (parser : Parser) (config : Config) (number : Nat) (project : Project)
    (registry : Registry) (wanted? : Option Text) :
    Except Breakdown BuildResult × Project × Registry :=
  let built := buildTree ⟨parser, project.tree, config⟩ project.revision registry
    (project.cacheAt number) wanted?
  (built.answer, project.setCache number built.cache, built.registry)

/-- Build the page of a project once.  Such builds share the module cache that listens to the
project, so that files which have not changed are not transformed again. -/
def buildOnce (parser : Parser) (config : Config) (project : Project)
    (wanted? : Option Text) : Except Breakdown BuildResult × Project :=
  let (number, project) := project.attachedCache {}
  let (answer, project, _) := build parser config number project .empty wanted?
  (answer, project)

end LivePreview.Preview
