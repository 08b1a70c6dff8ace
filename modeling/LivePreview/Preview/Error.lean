/-
  LivePreview.Preview.Error
  ─────────────────────────
  **Why there is no page for a project.**

  A build fails because a file has no module, or because something cannot be
  resolved.  A build that breaks down yields no result at all (`Breakdown`).
-/
import LivePreview.Module.Cache
import LivePreview.Text.Origin

namespace LivePreview.Preview

/-- What cannot be resolved. -/
inductive ResolutionFault where
  | entryNotFound (path : Text)
  | noEntry
  | unresolvedImport (importer : Text) (specifier : Text)
  | unknownExternal (importer : Text) (specifier : Text)
  deriving DecidableEq, Repr

namespace ResolutionFault

/-- The file that a fault is about. -/
def path : ResolutionFault → Text
  | .entryNotFound path => path
  | .noEntry => Path.root
  | .unresolvedImport importer _ | .unknownExternal importer _ => importer

/-- The specifier that a fault is about. -/
def specifier? : ResolutionFault → Option Text
  | .entryNotFound _ | .noEntry => none
  | .unresolvedImport _ specifier | .unknownExternal _ specifier => some specifier

/-- The wording of a fault. -/
def message : ResolutionFault → Text
  | .entryNotFound path => "Entry file not found: " ++ path
  | .noEntry => "No entry file found in workspace"
  | .unresolvedImport _ specifier => "Cannot resolve import '" ++ specifier ++ "'"
  | .unknownExternal _ specifier =>
    "No external source configured for '" ++ specifier ++ "'"

end ResolutionFault

/-- Why a build fails. -/
inductive BuildError where
  | noModule (error : Module.Error)
  | resolution (fault : ResolutionFault)
  deriving DecidableEq, Repr

namespace BuildError

/-- The word for the part of a build that fails. -/
def word : BuildError → String
  | .noModule _ => "transform"
  | .resolution _ => "resolution"

/-- The file that an error is about. -/
def path : BuildError → Text
  | .noModule error => error.path
  | .resolution fault => fault.path

/-- The wording of an error. -/
def message : BuildError → Text
  | .noModule error => error.fault.message
  | .resolution fault => fault.message

/-- The line that an error shows on. -/
def line? : BuildError → Option Nat
  | .noModule error => error.fault.line?
  | .resolution _ => none

/-- The specifier that an error is about. -/
def specifier? : BuildError → Option Text
  | .noModule _ => none
  | .resolution fault => fault.specifier?

/-- The error in one line. -/
def text (error : BuildError) : Text :=
  Module.located error.path error.line? error.message

/-- A text, or null. -/
def textOrNull : Option Text → Json
  | some s => .text s
  | none => .null

/-- The error as a value. -/
def toJson (error : BuildError) : Json :=
  .object [("kind", .text error.word), ("path", .text error.path),
    ("message", .text error.message), ("line", (error.line?.map fun n => .int n).getD .null),
    ("specifier", textOrNull error.specifier?)]

end BuildError

/-- How a build breaks down. -/
inductive Breakdown where
  | transformation (breakdown : Module.Breakdown)
  /-- A file of the project cannot be read. -/
  | tree (error : Tree.Error)
  /-- The code of the module of a file cannot be expressed in bytes. -/
  | unencodable (path : Text)
  /-- The URL of an external has no valid host. -/
  | url (fault : Text.UrlFault)

/-- The wording of a breakdown. -/
def Breakdown.message : Breakdown → Text
  | .transformation breakdown => breakdown.message
  | .tree error => error.message
  | .unencodable path => "the code of " ++ path ++ " cannot be encoded"
  | .url fault => fault.message

/-- How a build stops short of a result. -/
inductive Stop where
  | error (error : BuildError)
  | breakdown (breakdown : Breakdown)

/-- Why a path has no module, as the end of a build. -/
def Stop.ofFailure : Module.Failure → Stop
  | .noModule e => .error (.noModule e)
  | .tree e => .breakdown (.tree e)
  | .breakdown b => .breakdown (.transformation b)

end LivePreview.Preview
