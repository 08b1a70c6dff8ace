/-
  LivePreview.Path.Basic
  ──────────────────────
  **Paths, their normal form, and the relations between them.**

  A path is a text; both the slash and the backslash separate its segments.  Its
  normal form (`normalize`) is absolute.  It is made in three steps: slashes are put in
  for backslashes, every run of slashes becomes one, and the result is condensed
  (`condense`), as it is for paths of any kind: segments that are empty or `.` are
  skipped, `..` takes back the segment before it, and what is left is joined again.

  The other functions take paths as they are and look at slashes only: `parent`,
  `baseName`, `ancestors`, `isWithin` and `rebase` mean what their names say on
  paths in normal form, and stay total on all others.
-/
import LivePreview.Text.Basic
import LivePreview.Text.Blank
import LivePreview.Text.LetterCase

namespace LivePreview.Path

open LivePreview.Text (dropEndWhile toLower)

/-- The root directory. -/
def root : Text := "/"

/-! ## §1. The normal form -/

/-- What separates segments in normal form. -/
def slash : CodePoint := .char '/'

/-- What separates segments as well. -/
def backslash : CodePoint := .char '\\'

/-- The dot, which one or two of make up a segment of their own. -/
def dot : CodePoint := .char '.'

/-- The text with slashes for backslashes. -/
def withSlashes (points : List CodePoint) : List CodePoint :=
  points.map fun point => if point == backslash then slash else point

/-- The text with one slash for every run of slashes. -/
def squeeze : List CodePoint → List CodePoint
  | first :: second :: points =>
    if first == slash && second == slash then squeeze (second :: points)
    else first :: squeeze (second :: points)
  | points => points

/-- How many slashes a condensed path starts with: two are kept, and more than two become one. -/
def leadingSlashes (points : List CodePoint) : Nat :=
  match (points.takeWhile (· == slash)).length with
  | 0 => 0
  | 2 => 2
  | _ => 1

/-- Read one segment of a path that is absolute or not: the segments kept so far, last first, are
the stack.  A relative path may start with `..`, any number of times. -/
def pushComponent (isAbsolute : Bool) (stack : List (List CodePoint)) (segment : List CodePoint) :
    List (List CodePoint) :=
  if segment = [] ∨ segment = [dot] then stack
  else if segment ≠ [dot, dot] ∨ (isAbsolute = false ∧ stack = []) ∨ stack.head? = some [dot, dot] then
    segment :: stack
  else stack.tail

/-- A path of any kind without segments that lead nowhere; of an empty one a dot is left. -/
def condense (points : List CodePoint) : List CodePoint :=
  let slashes := leadingSlashes points
  let kept := ((points.splitOn slash).foldl (pushComponent (slashes != 0)) []).reverse
  let condensed := List.replicate slashes slash ++ [slash].intercalate kept
  if condensed.isEmpty then [dot] else condensed

/-- The normal form of a path. -/
def normalize (path : Text) : Text :=
  ⟨condense (squeeze (slash :: withSlashes path.points))⟩

/-- The path is its own normal form. -/
def IsNormal (path : Text) : Prop :=
  normalize path = path

instance (path : Text) : Decidable (IsNormal path) :=
  inferInstanceAs (Decidable (_ = _))

/-! ## §2. Parents and names -/

/-- What stands behind the last slash. -/
def afterLastSlash (points : List CodePoint) : List CodePoint :=
  (points.reverse.takeWhile (· != slash)).reverse

/-- What stands up to the last slash, that slash included. -/
def upToLastSlash (points : List CodePoint) : List CodePoint :=
  dropEndWhile (· != slash) points

/-- The directory that a path lies in; the root lies in itself. -/
def parent (path : Text) : Text :=
  let head := upToLastSlash path.points
  let directory := if head.all (· == slash) then head else dropEndWhile (· == slash) head
  if path = root ∨ directory.isEmpty then root else ⟨directory⟩

/-- The last segment of a path. -/
def baseName (path : Text) : Text :=
  ⟨afterLastSlash path.points⟩

/-- Append a path to a base; an absolute path replaces the base. -/
def append (base path : List CodePoint) : List CodePoint :=
  if path.head? = some slash then path
  else if base.isEmpty || base.getLast? = some slash then base ++ path
  else base ++ slash :: path

/-- The normal form of a base with further paths appended. -/
def join (base : Text) (parts : List Text) : Text :=
  normalize ⟨(parts.map Text.points).foldl append base.points⟩

/-- Up to `fuel` parents of a path, nearest first, ending at the root. -/
def parentsUpTo : Nat → Text → List Text
  | 0, _ => []
  | fuel + 1, path =>
    if path = root then [] else parent path :: parentsUpTo fuel (parent path)

/-- The directories above a path, the root first. -/
def ancestors (path : Text) : List Text :=
  (parentsUpTo (path.length + 1) path).reverse

/-! ## §3. Containment -/

/-- The path is the directory or lies beneath it. -/
def isWithin (path directory : Text) : Bool :=
  directory == root || path == directory
    || (directory.points ++ [slash]).isPrefixOf path.points

/-- Move a path from beneath one directory to the same place beneath another. -/
def rebase (path oldDirectory newDirectory : Text) : Text :=
  if path = oldDirectory then newDirectory
  else ⟨dropEndWhile (· == slash) newDirectory.points ++ path.points.drop oldDirectory.length⟩

/-! ## §4. Extensions -/

/-- The extension of a path with its point, in lower case; the points at the front of a name
start no extension. -/
def extension (path : Text) : Text :=
  let name := (afterLastSlash path.points).dropWhile (· == dot)
  if name.contains dot then toLower ⟨dot :: (name.reverse.takeWhile (· != dot)).reverse⟩
  else ""

end LivePreview.Path
