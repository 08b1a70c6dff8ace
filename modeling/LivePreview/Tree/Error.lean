/-
  LivePreview.Tree.Error
  ──────────────────────
  **Why an operation on a file tree is rejected.**

  Every cause has a kind, a small set of words that a caller can act on
  (`Error.kind`), a wording (`Error.message`), and in most cases a path
  (`Error.path?`).
-/
import LivePreview.Json.Shown
import LivePreview.Path.Basic

namespace LivePreview.Tree

/-- What is wrong with a snapshot. -/
inductive SnapshotFault where
  | notAMapping
  | keyNotText (key : Json)
  /-- Two keys have one normal form; the second is `key`. -/
  | duplicatePath (key path : Text)
  | entryNotAMapping (path : Text)
  | contentNotText (path : Text)
  | directoryWithContent (path : Text)
  | unknownKind (kind : Json) (path : Text)
  | missingRoot
  | rootNotADirectory
  | missingParent (path : Text)
  | parentIsFile (path : Text)
  deriving DecidableEq

/-- Why an operation is rejected. -/
inductive Error where
  | notFound (path : Text)
  | fileExists (path : Text)
  | destinationExists (path : Text)
  | deleteRoot
  | renameRoot
  /-- A directory is to be moved to a path inside it. -/
  | moveIntoItself (source destination : Text)
  | notADirectory (path : Text)
  /-- A file stands where a directory is to be made. -/
  | fileInTheWay (path : Text)
  | isADirectory (path : Text)
  | snapshot (fault : SnapshotFault)
  deriving DecidableEq

/-- The kinds of errors. -/
inductive ErrorKind where
  | notFound
  | alreadyExists
  | invalidOperation
  | typeMismatch
  | invalidSnapshot
  deriving DecidableEq, Repr

/-- The word for a kind of error. -/
def ErrorKind.word : ErrorKind → String
  | .notFound => "not_found"
  | .alreadyExists => "already_exists"
  | .invalidOperation => "invalid_operation"
  | .typeMismatch => "type_mismatch"
  | .invalidSnapshot => "invalid_snapshot"

/-- The wording of a fault. -/
def SnapshotFault.message : SnapshotFault → Text
  | .notAMapping => "Snapshot must be a mapping of path to node"
  | .keyNotText key => "Snapshot key is not a string: " ++ key.shown
  | .duplicatePath key _ => "Duplicate path after normalization: " ++ key
  | .entryNotAMapping path => "Entry for " ++ path ++ " must be a mapping"
  | .contentNotText path => "File content must be a string: " ++ path
  | .directoryWithContent path => "Directory cannot have content: " ++ path
  | .unknownKind kind path => "Unknown node kind " ++ kind.shown ++ " at " ++ path
  | .missingRoot => "Snapshot is missing the root directory"
  | .rootNotADirectory => "Snapshot root must be a directory"
  | .missingParent path => "Orphaned path (missing parent): " ++ path
  | .parentIsFile path => "Parent of " ++ path ++ " is a file"

/-- The path that a fault is about. -/
def SnapshotFault.path? : SnapshotFault → Option Text
  | .notAMapping | .keyNotText _ => none
  | .duplicatePath _ path | .entryNotAMapping path | .contentNotText path
  | .directoryWithContent path | .unknownKind _ path | .missingParent path
  | .parentIsFile path => some path
  | .missingRoot | .rootNotADirectory => some Path.root

namespace Error

/-- The kind of an error. -/
def kind : Error → ErrorKind
  | .notFound _ => .notFound
  | .fileExists _ | .destinationExists _ => .alreadyExists
  | .deleteRoot | .renameRoot | .moveIntoItself _ _ => .invalidOperation
  | .notADirectory _ | .fileInTheWay _ | .isADirectory _ => .typeMismatch
  | .snapshot _ => .invalidSnapshot

/-- The wording of an error. -/
def message : Error → Text
  | .notFound path => "No such file or directory: " ++ path
  | .fileExists path => "File already exists: " ++ path
  | .destinationExists path => "Destination already exists: " ++ path
  | .deleteRoot => "Cannot delete the root directory"
  | .renameRoot => "Cannot rename the root directory"
  | .moveIntoItself source _ => "Cannot move " ++ source ++ " into itself"
  | .notADirectory path => "Not a directory: " ++ path
  | .fileInTheWay path => "A file exists at path: " ++ path
  | .isADirectory path => "Is a directory: " ++ path
  | .snapshot fault => fault.message

/-- The path that an error is about. -/
def path? : Error → Option Text
  | .notFound path | .fileExists path | .destinationExists path | .notADirectory path
  | .fileInTheWay path | .isADirectory path => some path
  | .moveIntoItself _ destination => some destination
  | .deleteRoot | .renameRoot => some Path.root
  | .snapshot fault => fault.path?

end Error

end LivePreview.Tree
