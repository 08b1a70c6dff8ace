/-
  LivePreview.Preview.Graph
  ─────────────────────────
  **The modules that a page needs.**

  The search starts at the entry and follows local imports.  A file is transformed
  when it is reached, and all its imports are resolved before any of them is
  followed; it takes its place in the order when everything that it imports has been
  followed (`Graph.order`), so that a module stands behind what it needs, as far as
  cycles allow.

  The search keeps its own stack of files with the imports that are still to be
  followed (`Frame`).  It ends because every step follows an import to a file not
  reached before or shortens the stack (`search`).
-/
import LivePreview.Preview.Config
import LivePreview.Preview.Error

namespace LivePreview.Preview

open LivePreview.Lowering (Parser)

/-! ## §1. Graphs -/

/-- What a file imports: the URLs of externals by specifier, and the files that its local
specifiers name. -/
structure Links where
  externals : Table Text := []
  targets : Table Text := []
  deriving DecidableEq, Repr, Inhabited

/-- The modules of a page. -/
structure Graph where
  /-- The files in the order in which their modules are complete. -/
  order : List Text := []
  modules : Table Module := []
  /-- For every file, the files that its local specifiers name. -/
  targets : Table (Table Text) := []
  /-- The URLs of all externals by specifier. -/
  externals : Table Text := []
  deriving DecidableEq, Repr, Inhabited

/-- Put a file behind those that are complete. -/
def Graph.complete (graph : Graph) (path : Text) : Graph :=
  { graph with order := graph.order ++ [path] }

/-- Enter the module of a file and its links. -/
def Graph.enter (graph : Graph) (path : Text) (found : Module) (links : Links) : Graph :=
  { graph with
    modules := graph.modules.insert path found
    targets := graph.targets.insert path links.targets
    externals := links.externals }

/-- The files that a file imports, each once. -/
def Links.files (links : Links) : List Text :=
  links.targets.values.eraseDups

/-! ## §2. Resolving imports -/

/-- Look up an external for an importing file, unless it is known already. -/
def addExternal (config : Config) (importer : Text) (externals : Table Text)
    (specifier : Text) : Except ResolutionFault (Table Text) :=
  match externals.get? specifier with
  | some _ => .ok externals
  | none =>
    match resolveExternal? config.externals specifier with
    | some url => .ok (externals.insert specifier url)
    | none => .error (.unknownExternal importer specifier)

/-- Resolve an import of a file. -/
def addImport (tree : Tree) (config : Config) (importer : Text) (links : Links)
    (specifier : Text) : Except ResolutionFault Links :=
  if Path.Specifier.isLocal specifier then
    match tree.resolveImport? importer specifier with
    | some target => .ok { links with targets := links.targets.insert specifier target }
    | none => .error (.unresolvedImport importer specifier)
  else
    (addExternal config importer links.externals specifier).map fun externals =>
      { links with externals }

/-- Resolve all imports of a file, in order; some externals are known already. -/
def linksOf (tree : Tree) (config : Config) (importer : Text)
    (externals : Table Text) (imports : List Text) :
    Except ResolutionFault Links :=
  imports.foldlM (addImport tree config importer) { externals }

/-! ## §3. The search -/

/-- A step of the search: it may use and fill the module cache, which stays as it is when the
search stops. -/
abbrev Walk := ExceptT Stop (StateM Module.Cache)

/-- What does not change during a search. -/
structure Setting where
  parser : Parser
  tree : Tree
  config : Config

/-- Go on with a result, or stop because something cannot be resolved. -/
def resolved {α : Type} : Except ResolutionFault α → Walk α
  | .ok a => pure a
  | .error fault => throw (.error (.resolution fault))

/-- The module of a file. -/
def transform (setting : Setting) (path : Text) : Walk Module := do
  let cache ← getThe Module.Cache
  let (result, cache) := cache.moduleAt setting.parser setting.tree path
  set cache
  match result with
  | .ok found => return found
  | .error failure => throw (.ofFailure failure)

/-- Reach a file: transform it and resolve its imports.  The result is the graph with the file in
it, and the files that it imports. -/
def reach (setting : Setting) (graph : Graph) (path : Text) :
    Walk (Graph × List Text) := do
  let found ← transform setting path
  let links ← resolved
    (linksOf setting.tree setting.config path graph.externals found.imports)
  return (graph.enter path found links, links.files)

/-- A reached file and the imports of it that are still to be followed. -/
structure Frame where
  path : Text
  pending : List Text
  deriving DecidableEq, Repr

/-- How many steps a stack takes if it leads to no new file. -/
def stackSize (stack : List Frame) : Nat :=
  stack.foldr (fun frame size => frame.pending.length + 1 + size) 0

/-- Follow the imports on a stack; `unreached` lists the files that have not been reached. -/
def search (setting : Setting) (unreached : List Text) (stack : List Frame)
    (graph : Graph) : Walk Graph :=
  match stack with
  | [] => return graph
  | ⟨path, []⟩ :: rest => search setting unreached rest (graph.complete path)
  | ⟨path, target :: pending⟩ :: rest =>
    if _h : target ∈ unreached then do
      let (graph, imports) ← reach setting graph target
      search setting (unreached.erase target)
        (⟨target, imports⟩ :: ⟨path, pending⟩ :: rest) graph
    else search setting unreached (⟨path, pending⟩ :: rest) graph
termination_by (unreached.length, stackSize stack)
decreasing_by
  · simp [stackSize, Prod.lex_def]
  · have := List.length_pos_of_mem _h
    simp only [Prod.lex_def, List.length_erase_of_mem _h]
    omega
  · simp [stackSize, Prod.lex_def]

/-- The externals that the page needs itself. -/
def ownExternals (config : Config) (entry : Text) :
    Except ResolutionFault (Table Text) :=
  if config.mountsEntry then mountExternals.foldlM (addExternal config entry) [] else .ok []

/-- The modules that the entry needs. -/
def collect (setting : Setting) (entry : Text) : Walk Graph := do
  let externals ← resolved (ownExternals setting.config entry)
  let (graph, imports) ← reach setting { externals } entry
  let unreached := (setting.tree.files.map Prod.fst).erase entry
  search setting unreached [⟨entry, imports⟩] graph

/-- The file that a page starts with: the one that is asked for, or else the first candidate that
exists, or else the first script. -/
def selectEntry (tree : Tree) (config : Config) :
    Option Text → Except ResolutionFault Text
  | some path =>
    if tree.isFile path then .ok (Path.normalize path)
    else .error (.entryNotFound (Path.normalize path))
  | none =>
    match config.entryCandidates.find? tree.isFile with
    | some candidate => .ok candidate
    | none =>
      match (tree.files.map Prod.fst).find? Module.isScript with
      | some path => .ok path
      | none => .error .noEntry

end LivePreview.Preview
