/-
  LivePreview.Tree.Edit
  ─────────────────────
  **Operations that change a file tree.**

  An operation checks all its conditions first.  If one fails, it is rejected with
  the cause; otherwise it answers, and yields the new tree and the changes that are
  announced (`Outcome`).  An operation that finds nothing to do is accepted and
  announces nothing.
-/
import LivePreview.Json.Basic
import LivePreview.Tree.Basic
import LivePreview.Tree.Query

namespace LivePreview.Tree

/-- What an accepted operation yields. -/
structure Outcome (α : Type) where
  answer : α
  tree : Tree
  /-- The announced changes; `none` if nothing is announced. -/
  changes? : Option (List Change)

/-! ## §1. Creating -/

/-- The directories above a path that do not exist yet, the root first; rejected if one of them
is a file. -/
def missingAncestors (tree : Tree) (path : Text) : Except Error (List Text) :=
  match (Path.ancestors path).find? tree.isFileAt with
  | some file => .error (.notADirectory file)
  | none => .ok ((Path.ancestors path).filter (!tree.has ·))

/-- The announcement of new directories. -/
def createdDirectories (paths : List Text) : List Change :=
  paths.map fun path => .created path .directory

/-- Create a file at a path in normal form, with the directories above it. -/
def createFileAt (tree : Tree) (path : Text) (content : Json) :
    Except Error (Outcome Text) :=
  if tree.has path then .error (.fileExists path)
  else (tree.missingAncestors path).map fun missing =>
    { answer := path
      tree := (tree.attachDirectories missing).attach path (.file content)
      changes? := some (createdDirectories missing ++ [.created path .file]) }

/-- Create a file, with the directories above it; the answer is its path. -/
def createFile (tree : Tree) (path : Text) (content : Json) : Except Error (Outcome Text) :=
  tree.createFileAt (Path.normalize path) content

/-- Create a directory, with the directories above it, if it does not exist; the answer is its
path. -/
def createDirectory (tree : Tree) (path : Text) : Except Error (Outcome Text) :=
  let path := Path.normalize path
  match tree.get? path with
  | some (.file _) => .error (.fileInTheWay path)
  | some (.directory _) => .ok ⟨path, tree, none⟩
  | none => (tree.missingAncestors path).map fun missing =>
    { answer := path
      tree := tree.attachDirectories (missing ++ [path])
      changes? := some (createdDirectories (missing ++ [path])) }

/-- Give a file a content, creating the file if it does not exist; the answer is its path. -/
def writeFile (tree : Tree) (path : Text) (content : Json) : Except Error (Outcome Text) :=
  let path := Path.normalize path
  match tree.get? path with
  | none => tree.createFile path content
  | some (.directory _) => .error (.isADirectory path)
  | some (.file current) =>
    if current.agrees content then .ok ⟨path, tree, none⟩
    else .ok ⟨path, ⟨tree.nodes.insert path (.file content)⟩, some [.modified path]⟩

/-! ## §2. Deleting and renaming -/

/-- Take the nodes at the given paths away, from left to right. -/
def detachAll (tree : Tree) (paths : List Text) : Tree :=
  paths.foldl detach tree

/-- The kind of the node at a path. -/
def kindAt (tree : Tree) (path : Text) : NodeKind :=
  ((tree.get? path).map Node.kind).getD .file

/-- Delete what stands at a path in normal form, a node of the tree and not its root. -/
def deleteAt (tree : Tree) (path : Text) : Outcome (List Text) :=
  let removed := tree.subtree path
  { answer := removed
    tree := tree.detachAll removed.reverse
    changes? := some (removed.map fun p => .deleted p (tree.kindAt p)) }

/-- Delete a node and everything beneath it; the answer is the list of their paths, a directory
in front of its children. -/
def delete (tree : Tree) (path : Text) : Except Error (Outcome (List Text)) :=
  let path := Path.normalize path
  if path = Path.root then .error .deleteRoot
  else (tree.require path).map fun _ => tree.deleteAt path

/-- The node without children, as it is put at a new path. -/
def emptied : Node → Node
  | .file content => .file content
  | .directory _ => Node.emptyDirectory

/-- The nodes beneath a path with the paths that they get when it becomes `newPath`. -/
def relocated (tree : Tree) (path newPath : Text) : List (Text × Node) :=
  (tree.subtree path).filterMap fun p =>
    (tree.get? p).map fun node => (Path.rebase p path newPath, emptied node)

/-- Put nodes at paths, from left to right. -/
def attachAll (tree : Tree) (nodes : List (Text × Node)) : Tree :=
  nodes.foldl (fun t (path, node) => t.attach path node) tree

/-- Move the node of a kind at a path in normal form to a new one that is free, below the
directories of `missing`, which are created. -/
def renameAt (tree : Tree) (old new : Text) (kind : NodeKind) (missing : List Text) :
    Outcome Text :=
  let cleared := (tree.attachDirectories missing).detachAll (tree.subtree old).reverse
  { answer := new
    tree := cleared.attachAll (tree.relocated old new)
    changes? := some (createdDirectories missing ++ [.renamed old kind new]) }

/-- Move a node, and everything beneath it, to a new path, creating the directories above it;
the answer is the new path. -/
def rename (tree : Tree) (oldPath newPath : Text) : Except Error (Outcome Text) :=
  let old := Path.normalize oldPath
  let new := Path.normalize newPath
  if old = Path.root then .error .renameRoot
  else
    match tree.require old with
    | .error e => .error e
    | .ok source =>
      if tree.has new then .error (.destinationExists new)
      else if source.isDirectory && Path.isWithin new old then .error (.moveIntoItself old new)
      else (tree.missingAncestors new).map (tree.renameAt old new source.kind)

end LivePreview.Tree
