/-
  LivePreview.Tree.Snapshot
  ─────────────────────────
  **Snapshots: a tree as one value.**

  A snapshot maps every path to an entry that says what stands there.  A tree writes
  its snapshot in ascending order of the paths (`Tree.serialize`).  Reading one
  (`Tree.ofSnapshot`) takes the paths in any spelling and the entries in any order,
  and accepts exactly those that describe a well-formed tree of texts.
-/
import LivePreview.Tree.Edit

namespace LivePreview.Tree

/-- What is offered as a snapshot. -/
inductive Snapshot where
  /-- A mapping, in the order of its keys. -/
  | mapping (entries : List (Json × Json))
  | notAMapping

/-! ## §1. Writing -/

/-- The entry of a node. -/
def entryOf : Node → Json
  | .file content => .object [("kind", .text NodeKind.file.word), ("content", content)]
  | .directory _ => .object [("kind", .text NodeKind.directory.word)]

/-- The snapshot of a tree: the paths in ascending order with their entries. -/
def serialize (tree : Tree) : Json.Fields :=
  tree.toList.map fun (path, node) => (path, entryOf node)

/-- The mapping with the given texts as keys. -/
def Snapshot.ofFields (fields : Json.Fields) : Snapshot :=
  .mapping (fields.map fun (key, value) => (.text key, value))

/-- The value as a snapshot. -/
def Snapshot.ofJson : Json → Snapshot
  | .object fields => .ofFields fields
  | _ => .notAMapping

/-! ## §2. Reading -/

/-- The node that an entry describes, without its children. -/
def nodeOf (path : Text) (entry : Json) : Except SnapshotFault Node :=
  match entry with
  | .object fields =>
    let kind := (Table.get? fields "kind").getD .null
    let content := (Table.get? fields "content").getD .null
    if kind = .text NodeKind.file.word then
      match content with
      | .null => .ok (.file (.text ""))
      | .text s => .ok (.file (.text s))
      | _ => .error (.contentNotText path)
    else if kind = .text NodeKind.directory.word then
      if content = .null then .ok Node.emptyDirectory else .error (.directoryWithContent path)
    else .error (.unknownKind kind path)
  | _ => .error (.entryNotAMapping path)

/-- Enter what a key and its entry describe. -/
def readEntry (tree : Tree) (entry : Json × Json) : Except SnapshotFault Tree :=
  match entry.1 with
  | .text key =>
    let path := Path.normalize key
    if tree.has path then .error (.duplicatePath key path)
    else (nodeOf path entry.2).map fun node => ⟨tree.nodes.insert path node⟩
  | key => .error (.keyNotText key)

/-- The tree has a root, and it is a directory. -/
def checkRoot (tree : Tree) : Except SnapshotFault Unit :=
  match tree.get? Path.root with
  | some (.directory _) => .ok ()
  | some (.file _) => .error .rootNotADirectory
  | none => .error .missingRoot

/-- What is wrong with the directory of a path. -/
def parentFault? (tree : Tree) (path : Text) : Option SnapshotFault :=
  if path = Path.root then none
  else
    match tree.get? (Path.parent path) with
    | some (.directory _) => none
    | some (.file _) => some (.parentIsFile path)
    | none => some (.missingParent path)

/-- Enter a path among the children of its directory. -/
def enterInParent (tree : Tree) (path : Text) : Tree :=
  if path = Path.root then tree else tree.update (Path.parent path) (Node.addChild path)

/-- Enter every path among the children of its directory. -/
def linkChildren (tree : Tree) : Except SnapshotFault Tree :=
  let paths := tree.nodes.keys
  match paths.findSome? tree.parentFault? with
  | some fault => .error fault
  | none => .ok (paths.foldl enterInParent tree)

/-- The tree that the entries of a mapping describe. -/
def ofEntries (entries : List (Json × Json)) : Except SnapshotFault Tree := do
  let tree ← entries.foldlM readEntry ⟨∅⟩
  tree.checkRoot
  tree.linkChildren

/-- The tree that a snapshot describes. -/
def ofSnapshot : Snapshot → Except Error Tree
  | .notAMapping => .error (.snapshot .notAMapping)
  | .mapping entries => (ofEntries entries).mapError .snapshot

/-- The nodes of a tree, the root apart, in ascending order of their paths. -/
def underRoot (tree : Tree) : List (Text × Node) :=
  tree.toList.filter fun (path, _) => path != Path.root

/-- Put the tree that a snapshot describes in place of a tree.  What was there is announced as
deleted and what is there now as created. -/
def replace (tree : Tree) (snapshot : Snapshot) : Except Error (Outcome Unit) :=
  (ofSnapshot snapshot).map fun new =>
    { answer := ()
      tree := new
      changes? := some (tree.underRoot.map (fun (path, node) => .deleted path node.kind)
        ++ new.underRoot.map (fun (path, node) => .created path node.kind)) }

end LivePreview.Tree
