/-
  LivePreview.Path.Specifier
  ──────────────────────────
  **What an import specifier points at.**

  A specifier is local if it is relative (`.`, `..`, `./…`, `../…`), absolute
  (`/…`), or written from the root of the workspace (`@/…`); any other non-empty
  specifier is bare and names something outside the workspace.  A local specifier
  has a `target`, the path it points at, and `candidates` lists the files that are
  tried for a target: the path itself, the path with each extension, and the index
  file with each extension beneath it.
-/
import LivePreview.Path.Basic

namespace LivePreview.Path.Specifier

/-- The extensions that an import may leave out, in the order in which they are tried. -/
def importExtensions : List Text :=
  [".tsx", ".jsx", ".ts", ".js", ".css"]

/-- The start of a specifier that is written from the root of the workspace. -/
def rootAlias : Text := "@/"

/-- The specifier is written from the directory of the importing file. -/
def isRelative (specifier : Text) : Bool :=
  specifier == "." || specifier == ".." || specifier.startsWith "./"
    || specifier.startsWith "../"

/-- The specifier is written from the root of the workspace. -/
def isAliased (specifier : Text) : Bool :=
  specifier.startsWith rootAlias

/-- The specifier is an absolute path. -/
def isAbsolute (specifier : Text) : Bool :=
  specifier.points.head? == some slash

/-- The specifier names a file of the workspace. -/
def isLocal (specifier : Text) : Bool :=
  isRelative specifier || isAbsolute specifier || isAliased specifier

/-- The specifier names something outside the workspace. -/
def isBare (specifier : Text) : Bool :=
  !specifier.isEmpty && !isLocal specifier

/-- The path that a local specifier points at from a file, before extensions are tried. -/
def target? (importer specifier : Text) : Option Text :=
  if isRelative specifier then some (join (parent (normalize importer)) [specifier])
  else if isAliased specifier then
    some (normalize (specifier.drop rootAlias.length))
  else if isAbsolute specifier then some (normalize specifier)
  else none

/-- The files that are tried for a target, in order. -/
def candidates (target : Text) : List Text :=
  let directory : Text := if target = root then "" else target
  target :: importExtensions.map (target ++ ·)
    ++ importExtensions.map (directory ++ "/index" ++ ·)

end LivePreview.Path.Specifier
