/-
  LivePreview.Cli.Disk
  ────────────────────
  **Files on disk, and loading a directory of them.**

  A disk holds bytes under the names of directories and files on the way to them.  A
  path as a user writes it is followed part by part, and every part but the last has
  to be a directory (`Disk.follow`).  Loading a directory puts every file beneath it
  that is text into a project, in ascending order of the names, and leaves out what is
  hidden and what other tools generate.
-/
import LivePreview.Project

namespace LivePreview.Cli

/-- The names of the directories on the way to a file or directory, and its own name. -/
abbrev Segments := List String

/-- Files and directories, named from the root directory on. -/
structure Disk where
  /-- Where written paths start that do not start at the root directory. -/
  workingDirectory : Segments := []
  files : List (Segments × ByteArray)
  /-- Directories that are there even if they hold nothing. -/
  directories : List Segments
  deriving Inhabited

/-! ## §1. Written paths -/

/-- The parts of a written path, without empty ones and without `.`. -/
def partsOf (written : String) : List String :=
  ((written.toList.splitOn '/').filter fun cs => !cs.isEmpty && cs != ['.']).map String.ofList

/-- The slashes at the front of a written path: none, one, or just two. -/
def rootOf (written : String) : String :=
  match written.toList with
  | '/' :: '/' :: '/' :: _ => "/"
  | '/' :: '/' :: _ => "//"
  | '/' :: _ => "/"
  | _ => ""

/-- A written path without what it need not say. -/
def tidy (written : String) : String :=
  let text := rootOf written ++ "/".intercalate (partsOf written)
  if text.isEmpty then "." else text

namespace Disk

/-! ## §2. Files and directories -/

/-- The bytes of a file. -/
def bytes? (disk : Disk) (place : Segments) : Option ByteArray :=
  disk.files.lookup place

/-- A file stands at a place. -/
def isFile (disk : Disk) (place : Segments) : Bool :=
  (disk.bytes? place).isSome

/-- A directory stands at a place. -/
def isDirectory (disk : Disk) (place : Segments) : Bool :=
  place.isPrefixOf disk.workingDirectory
    || disk.directories.any (fun directory => place.isPrefixOf directory)
    || disk.files.any fun (file, _) => place.isPrefixOf file && place != file

/-- The files beneath a directory, named from there, in ascending order. -/
def beneath (disk : Disk) (directory : Segments) : List (Segments × ByteArray) :=
  let found := disk.files.filter fun (file, _) =>
    directory.isPrefixOf file && directory != file
  (found.map fun (file, bytes) => (file.drop directory.length, bytes)).mergeSort
    fun a b => (List.compareLex compare a.1 b.1).isLE

/-! ## §3. Following and writing -/

/-- The place where a written path starts. -/
def origin (disk : Disk) (written : String) : Segments :=
  if rootOf written = "" then disk.workingDirectory else []

/-- The place that a written path without `..` names. -/
def placeOf (disk : Disk) (written : String) : Segments :=
  disk.origin written ++ partsOf written

/-- Why a written path leads nowhere, or to no file that can be written. -/
inductive Fault where
  | noSuchDirectory
  | notADirectory
  | isADirectory
  /-- A part of the path, or the whole of it, is longer than names on disk can be. -/
  | nameTooLong
  /-- The path holds a NUL character. -/
  | embeddedNul
  deriving DecidableEq, Repr

/-- The wording of a fault. -/
def Fault.message : Fault → String
  | .noSuchDirectory => "No such directory"
  | .notADirectory => "Not a directory"
  | .isADirectory => "Is a directory"
  | .nameTooLong => "File name too long"
  | .embeddedNul => "embedded null byte"

/-- The longest name, in bytes. -/
def nameLimit : Nat := 255

/-- The longest path, in bytes. -/
def pathLimit : Nat := 4095

/-- Follow one part of a written path out of a place, which has to be a directory. -/
def step (disk : Disk) (place : Segments) (part : String) : Except Fault Segments :=
  if disk.isDirectory place then
    if nameLimit < part.utf8ByteSize then .error .nameTooLong
    else .ok (if part = ".." then place.dropLast else place ++ [part])
  else if disk.isFile place then .error .notADirectory
  else .error .noSuchDirectory

/-- The place that a written path leads to; there need be nothing at it. -/
def follow (disk : Disk) (written : String) : Except Fault Segments :=
  if written.contains '\x00' then .error .embeddedNul
  else if pathLimit < (tidy written).utf8ByteSize then .error .nameTooLong
  else (partsOf written).foldlM disk.step (disk.origin written)

/-- The directory that a written path leads to, if there is one.  Only a name that is too long is
a fault here. -/
def findDirectory (disk : Disk) (written : String) : Except Fault (Option Segments) :=
  match disk.follow written with
  | .ok place => .ok (if disk.isDirectory place then some place else none)
  | .error .nameTooLong => .error .nameTooLong
  | .error _ => .ok none

/-- The bytes of the file that a written path leads to. -/
def bytesAt? (disk : Disk) (written : String) : Option ByteArray :=
  match disk.follow written with
  | .ok place => disk.bytes? place
  | .error _ => none

/-- Write a file. -/
def write (disk : Disk) (written : String) (bytes : ByteArray) : Except Fault Disk := do
  let place ← disk.follow written
  if disk.isDirectory place then throw .isADirectory
  return { disk with files := (place, bytes) :: disk.files.filter (·.1 != place) }

end Disk

/-! ## §4. Loading -/

/-- The names of directories and files that are never loaded. -/
def skippedNames : List String :=
  ["node_modules", ".git", "__pycache__", "dist", "build"]

/-- The name keeps a file from being loaded. -/
def isSkipped (name : String) : Bool :=
  name.toList.head? == some '.' || skippedNames.contains name

/-- The text with a line feed at the end of every line. -/
def withLineFeeds : List Char → List Char
  | [] => []
  | '\r' :: '\n' :: cs => '\n' :: withLineFeeds cs
  | c :: cs => (if c == '\r' then '\n' else c) :: withLineFeeds cs

/-- The text that the bytes of a file are, if they are text. -/
def textOf? (bytes : ByteArray) : Option String :=
  (String.fromUTF8? bytes).map fun s => String.ofList (withLineFeeds s.toList)

/-- A file as it is named to the user. -/
def shownName (file : Segments) : String :=
  "/".intercalate file

/-- Load a file into a project, or note that it is no text. -/
def loadFile (state : Project × List Segments) (file : Segments × ByteArray) :
    Except Tree.Error (Project × List Segments) :=
  match textOf? file.2 with
  | none => .ok (state.1, state.2 ++ [file.1])
  | some text =>
    match state.1.edit (·.createFile ("/" ++ shownName file.1) (.text text)) with
    | (.ok _, project) => .ok (project, state.2)
    | (.error e, _) => .error e

/-- The project in a directory, and the files that were left out because they are no text. -/
def load (disk : Disk) (directory : Segments) : Except Tree.Error (Project × List Segments) :=
  ((disk.beneath directory).filter fun (file, _) => !file.any isSkipped).foldlM loadFile
    ({}, [])

end LivePreview.Cli
