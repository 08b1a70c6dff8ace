/-
  LivePreview.Preview.Session
  ───────────────────────────
  **The page that is on screen.**

  Builds may overlap.  Each one begins with a ticket, and only the build that began
  last may put its page on screen; the references of all others are given back as
  their results arrive.  A build that fails leaves the page on screen as it is.
-/
import LivePreview.Preview.Build

namespace LivePreview.Preview

open LivePreview.Module (Registry)

/-- What is on screen. -/
structure Session where
  document? : Option Document := none
  /-- The error of the latest build, if that build failed. -/
  lastError? : Option BuildError := none
  /-- The ticket of the build that began last. -/
  ticket : Nat := 0
  deriving DecidableEq, Repr, Inhabited

/-- Give back the references of a document. -/
def release (registry : Registry) (document : Document) : Registry :=
  registry.releaseAll document.references.values

/-- Give back the references of a document, if there is one. -/
def releaseIfAny (registry : Registry) : Option Document → Registry
  | some document => release registry document
  | none => registry

namespace Session

/-- Begin a build. -/
def begin (session : Session) : Nat × Session :=
  (session.ticket + 1, { session with ticket := session.ticket + 1 })

/-- Take the result of the build with a ticket.  The answer tells whether it was the build that
began last. -/
def accept (session : Session) (registry : Registry) (ticket : Nat) (result : BuildResult) :
    Bool × Session × Registry :=
  if ticket ≠ session.ticket then
    (false, session, releaseIfAny registry result.document?)
  else
    match result.outcome with
    | .error e => (true, { session with lastError? := some e }, registry)
    | .ok document =>
      (true, { session with document? := some document, lastError? := none },
        releaseIfAny registry session.document?)

/-- Take the page off the screen, and make every begun build stale. -/
def close (session : Session) (registry : Registry) : Session × Registry :=
  ({ session with document? := none, ticket := session.ticket + 1 },
    releaseIfAny registry session.document?)

end Session

end LivePreview.Preview
