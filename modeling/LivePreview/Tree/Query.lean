/-
  LivePreview.Tree.Query
  ──────────────────────
  **Questions to a file tree.**

  Paths are taken in any spelling and brought into normal form first.
-/
import LivePreview.Path.Specifier
import LivePreview.Tree.Basic
import LivePreview.Tree.Error

namespace LivePreview.Tree

/-- A file stands at a path in normal form. -/
def isFileAt (tree : Tree) (path : Text) : Bool :=
  (tree.get? path).any Node.isFile

/-- A directory stands at a path in normal form. -/
def isDirectoryAt (tree : Tree) (path : Text) : Bool :=
  (tree.get? path).any Node.isDirectory

/-- The node at a path in normal form. -/
def require (tree : Tree) (path : Text) : Except Error Node :=
  match tree.get? path with
  | some node => .ok node
  | none => .error (.notFound path)

/-- A node stands at a path. -/
def exists? (tree : Tree) (path : Text) : Bool :=
  tree.has (Path.normalize path)

/-- A file stands at a path. -/
def isFile (tree : Tree) (path : Text) : Bool :=
  tree.isFileAt (Path.normalize path)

/-- A directory stands at a path. -/
def isDirectory (tree : Tree) (path : Text) : Bool :=
  tree.isDirectoryAt (Path.normalize path)

/-- The normal form of a path and the node that stands there. -/
def node (tree : Tree) (path : Text) : Except Error (Text × Node) :=
  (tree.require (Path.normalize path)).map (Path.normalize path, ·)

/-- The content of a file. -/
def read (tree : Tree) (path : Text) : Except Error Json :=
  match tree.require (Path.normalize path) with
  | .ok (.file content) => .ok content
  | .ok (.directory _) => .error (.isADirectory (Path.normalize path))
  | .error e => .error e

/-- The names of what a directory holds, in ascending order. -/
def list (tree : Tree) (path : Text) : Except Error (List Text) :=
  match tree.require (Path.normalize path) with
  | .ok (.directory children) => .ok (children.toList.map Path.baseName)
  | .ok (.file _) => .error (.notADirectory (Path.normalize path))
  | .error e => .error e

/-- The paths and contents of all files, in ascending order of the paths. -/
def files (tree : Tree) : List (Text × Json) :=
  tree.toList.filterMap fun (path, node) => node.content?.map (path, ·)

/-- A path and everything beneath it, a directory in front of its children. -/
def walk (tree : Tree) (path : Text) : Except Error (List Text) :=
  (tree.require (Path.normalize path)).map fun _ => tree.subtree (Path.normalize path)

/-- The file that a specifier names in an importing file, if there is one. -/
def resolveImport? (tree : Tree) (importer specifier : Text) : Option Text := do
  let target ← Path.Specifier.target? importer specifier
  (Path.Specifier.candidates target).find? tree.isFile

/-- How many files and directories the tree holds, in words. -/
def describe (tree : Tree) : String :=
  let count := tree.files.length
  "VirtualFileSystem(files=" ++ toString count ++ ", directories="
    ++ toString (tree.size - count) ++ ")"

end LivePreview.Tree
