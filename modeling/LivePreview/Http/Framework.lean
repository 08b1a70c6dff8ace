/-
  LivePreview.Http.Framework
  ──────────────────────────
  **Requests on the way to a handler, and what it returns on the way back.**

  The server does not read requests and write responses itself.  A framework does: it
  finds out which handler a request is for and whether it gives what the handler needs,
  and it writes down what the handler returns (`Framework`).  Everything that is said of
  the server holds with any framework.  Where more is needed, it is named
  (`Framework.ReadsCommands`, `Framework.WritesTexts`).

  What breaks down is answered, too, with the status of an internal error (`status`).
-/
import LivePreview.Http.Handler
import LivePreview.Http.Message

namespace LivePreview.Http

open LivePreview.Lowering (Parser)
open LivePreview.Workspace (Store)

/-- What answering comes to: a response, or a breakdown. -/
abbrev Answering := Except Breakdown Response

/-- The answer to a request, and the store behind it. -/
abbrev Answer := Answering × Store

/-- The status that the sender of a request sees. -/
def status : Answering → Nat
  | .ok response => response.status
  | .error _ => 500

/-- A framework for servers. -/
structure Framework where
  /-- The call that a request leads to, or the answer to a request that leads to none. -/
  receive : Request → Except Answering Call
  /-- The content of the response to what a handler returns, if it can be written down. -/
  write : Outcome → Except Breakdown Content

namespace Framework

variable (framework : Framework)

/-- The call that a request leads to. -/
def call? (request : Request) : Option Call :=
  (framework.receive request).toOption

/-- The response to what a handler comes to. -/
def respond : Handled → Answering
  | .error breakdown => .error breakdown
  | .ok outcome => (framework.write outcome).map fun content => ⟨outcome.status, content⟩

/-- Answer a request; a workspace that it creates gets the given id. -/
def answer (parser : Parser) (newId : String) (store : Store) (request : Request) : Answer :=
  match framework.receive request with
  | .error answering => (answering, store)
  | .ok call =>
    let (handled, store) := handle parser newId store call
    (framework.respond handled, store)

/-! ## What frameworks are known to do -/

/-- A command is only taken if its paths can be expressed in bytes. -/
def ReadsCommands : Prop :=
  ∀ request id form, framework.call? request = some (.runCommand id form) →
    form.path.isEncodable = true ∧
      ∀ newPath, form.newPath? = some newPath → newPath.isEncodable = true

/-- What can be expressed in bytes is written down, if its values are such as are expected there and
do not lie deep inside one another. -/
def WritesTexts : Prop :=
  ∀ outcome, outcome.isPlain = true → outcome.toJson.isEncodable = true →
    outcome.toJson.depth ≤ 4 → ∃ content, framework.write outcome = .ok content

end Framework

end LivePreview.Http
