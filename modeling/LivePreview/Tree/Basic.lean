/-
  LivePreview.Tree.Basic
  ──────────────────────
  **The file tree of a workspace.**

  A tree maps paths in normal form to nodes.  A file holds its content; a directory
  holds the set of the paths directly beneath it, so that the tree can be walked
  without searching the map.  `Tree.WellFormed` says how the two representations
  belong together.

  Content is any JSON value.  Editors write texts, and a snapshot may hold nothing
  else; but an assistant's request to create a file stores what it was given.

  An accepted operation announces a list of changes.  Reading them in order, a
  listener can keep its own list of what the tree holds.
-/
import Std.Data.ExtTreeMap
import Std.Data.ExtTreeSet
import LivePreview.Json.Basic
import LivePreview.Path.Basic
import LivePreview.Text.Basic

namespace LivePreview

/-! ## §1. Nodes and trees -/

/-- What stands at a path: a file or a directory. -/
inductive NodeKind where
  | file
  | directory
  deriving DecidableEq, Repr, Inhabited

/-- The word for a kind of node. -/
def NodeKind.word : NodeKind → String
  | .file => "file"
  | .directory => "directory"

/-- A set of paths. -/
abbrev PathSet := Std.ExtTreeSet Text compare

/-- A node of the tree.  Its path is the key that it stands at and is not held a second time; a
file has no children, and a directory no content. -/
inductive Node where
  /-- A file and its content. -/
  | file (content : Json)
  /-- A directory and the paths directly beneath it. -/
  | directory (children : PathSet)
  deriving Inhabited

namespace Node

/-- The kind of a node. -/
def kind : Node → NodeKind
  | .file _ => .file
  | .directory _ => .directory

/-- The node is a file. -/
def isFile (node : Node) : Bool :=
  node.kind == .file

/-- The node is a directory. -/
def isDirectory (node : Node) : Bool :=
  node.kind == .directory

/-- The content of a file. -/
def content? : Node → Option Json
  | .file content => some content
  | .directory _ => none

/-- The paths directly beneath a directory, in ascending order. -/
def childList : Node → List Text
  | .file _ => []
  | .directory children => children.toList

/-- An empty directory. -/
def emptyDirectory : Node :=
  .directory ∅

/-- Enter a path among the children of a directory. -/
def addChild (path : Text) : Node → Node
  | .directory children => .directory (children.insert path)
  | node => node

/-- Take a path out of the children of a directory. -/
def removeChild (path : Text) : Node → Node
  | .directory children => .directory (children.erase path)
  | node => node

end Node

/-- The nodes of a workspace by their paths. -/
@[ext] structure Tree where
  nodes : Std.ExtTreeMap Text Node compare

namespace Tree

/-- The tree that holds nothing but the root directory. -/
def empty : Tree :=
  ⟨(∅ : Std.ExtTreeMap Text Node compare).insert Path.root Node.emptyDirectory⟩

instance : Inhabited Tree := ⟨empty⟩

/-- The node at a path in normal form. -/
def get? (tree : Tree) (path : Text) : Option Node :=
  tree.nodes[path]?

/-- A node stands at a path in normal form. -/
def has (tree : Tree) (path : Text) : Bool :=
  (tree.get? path).isSome

/-- The number of nodes, the root included. -/
def size (tree : Tree) : Nat :=
  tree.nodes.size

/-- All paths with their nodes, in ascending order. -/
def toList (tree : Tree) : List (Text × Node) :=
  tree.nodes.toList

/-- The directory map and the children sets agree: the root is a directory; every path is in
normal form and lies in a directory of the tree; and the children of a directory are the
paths that lie in it, the root apart. -/
structure WellFormed (tree : Tree) : Prop where
  root_isDirectory : ∃ children, tree.get? Path.root = some (.directory children)
  isNormal : ∀ path node, tree.get? path = some node → Path.IsNormal path
  parent_isDirectory : ∀ path node, tree.get? path = some node → path ≠ Path.root →
    ∃ children, tree.get? (Path.parent path) = some (.directory children)
  mem_children_iff : ∀ directory children, tree.get? directory = some (.directory children) →
    ∀ path, path ∈ children ↔
      path ≠ Path.root ∧ tree.has path = true ∧ Path.parent path = directory

/-! ## §2. Attaching and detaching nodes -/

/-- Apply a function to the node at a path, if there is one. -/
def update (tree : Tree) (path : Text) (f : Node → Node) : Tree :=
  match tree.get? path with
  | some node => ⟨tree.nodes.insert path (f node)⟩
  | none => tree

/-- Put a node at a path and enter the path in its directory. -/
def attach (tree : Tree) (path : Text) (node : Node) : Tree :=
  let placed : Tree := ⟨tree.nodes.insert path node⟩
  if path = Path.root then placed
  else placed.update (Path.parent path) (Node.addChild path)

/-- Take the node at a path away, also out of its directory. -/
def detach (tree : Tree) (path : Text) : Tree :=
  let removed : Tree := ⟨tree.nodes.erase path⟩
  removed.update (Path.parent path) (Node.removeChild path)

/-- Put empty directories at the given paths, from left to right. -/
def attachDirectories (tree : Tree) (paths : List Text) : Tree :=
  paths.foldl (fun t path => t.attach path Node.emptyDirectory) tree

/-- The nodes beneath a path down to a depth, the path itself first and every directory in
front of its children. -/
def descend (tree : Tree) : Nat → Text → List Text
  | 0, path => [path]
  | depth + 1, path =>
    path :: (((tree.get? path).map Node.childList).getD []).flatMap (tree.descend depth)

/-- The path and everything beneath it, a directory in front of its children and the children
in ascending order. -/
def subtree (tree : Tree) (path : Text) : List Text :=
  tree.descend tree.size path

end Tree

end LivePreview

namespace LivePreview.Tree

/-! ## §3. Changes -/

/-- One change of a tree. -/
inductive Change where
  | created (path : Text) (kind : NodeKind)
  | modified (path : Text)
  | deleted (path : Text) (kind : NodeKind)
  /-- The node at a path, and everything beneath it, stands at a new path. -/
  | renamed (path : Text) (kind : NodeKind) (newPath : Text)
  deriving DecidableEq, Repr

namespace Change

/-- The word for what happened. -/
def word : Change → String
  | .created _ _ => "created"
  | .modified _ => "modified"
  | .deleted _ _ => "deleted"
  | .renamed _ _ _ => "renamed"

/-- The path of the change; of a renamed node the old one. -/
def path : Change → Text
  | .created path _ | .modified path | .deleted path _ | .renamed path _ _ => path

/-- The kind of the node. -/
def nodeKind : Change → NodeKind
  | .created _ kind | .deleted _ kind | .renamed _ kind _ => kind
  | .modified _ => .file

/-- The new path of a renamed node. -/
def newPath? : Change → Option Text
  | .renamed _ _ newPath => some newPath
  | _ => none

end Change

end LivePreview.Tree
