/-
  LivePreview.Http.Server
  ───────────────────────
  **The server as it runs.**

  A request is checked from the outside in: its target and method, then its body, and then
  the handler is called that they lead to (`Stack.receive`).  What a handler returns is
  written down as JSON or as a page, which fails if it holds something that cannot be
  expressed (`Stack.write`).
-/
import LivePreview.Http.Framework
import LivePreview.Http.Stack.Description
import LivePreview.Http.Stack.Route
import LivePreview.Http.Stack.Target

namespace LivePreview.Http

open LivePreview.Lowering (Parser)
open LivePreview.Workspace (Store)

namespace Stack

/-! ## §1. Writing -/

/-- Why a value cannot be written, if it cannot. -/
def flaw? (value : Json) : Option Breakdown :=
  if !value.isStandard then some .notStandard
  else if !value.isEncodable then some .notEncodable
  else none

/-- Write a value down. -/
def writeValue (value : Json) : Except Breakdown Content :=
  match flaw? value with
  | some breakdown => .error breakdown
  | none => .ok (.json value)

/-- How many values may lie inside one another in a report. -/
def depthLimit : Nat := 257

/-- Write a report down; null stands for the numbers that JSON has no words for. -/
def writeReport (report : Report) : Except Breakdown Content :=
  let value := report.toJson
  if value.isEncodable && value.depth ≤ depthLimit then .ok (.json value.toStandard)
  else .error .notTold

/-- The first file without a text in a report that lists files. -/
def misfitFile? : Report → Option Text
  | .files files _ => (files.find? fun (_, content) => content.text?.isNone).map Prod.fst
  | _ => none

/-- Write down what a handler returns. -/
def write : Outcome → Except Breakdown Content
  | .report _ report =>
    match misfitFile? report with
    | some path => .error (.fileNotText path)
    | none => writeReport report
  | .page html => if html.isEncodable then .ok (.html html) else .error .notEncodable
  | outcome => writeValue outcome.toJson

/-! ## §2. Answers without a handler -/

/-- Respond with a value. -/
def respond (status : Nat) (value : Json) : Answering :=
  (writeValue value).map fun content => ⟨status, content⟩

/-- Refuse a request, and tell why. -/
def refuse (status : Nat) (detail : String) : Answering :=
  respond status (.object [("detail", .text detail)])

/-- The response to a request for a path with slashes at its end. -/
def moved : Response :=
  ⟨307, .empty⟩

/-- The response to a request for the head only. -/
def headOf (response : Response) : Response :=
  match response.content with
  | .empty => response
  | _ => { response with content := .withheld }

/-- The response to a body that cannot be read. -/
def bodyRefusal : BodyFault → Answering
  | .issues issues =>
    match flaw? (.array (issues.map Issue.input)) with
    | some breakdown => .error breakdown
    | none => .ok ⟨422, .issues issues⟩
  | .unreadable => refuse 400 "There was an error parsing the body"

/-! ## §3. Reading -/

/-- The last value of a parameter. -/
def parameter? (parameters : List (String × String)) (name : String) : Option String :=
  parameters.reverse.lookup name

/-- The call that an action leads to, with some parameters and a body. -/
def callFor (parameters : List (String × String)) (body : String) :
    Action → Except Answering Call
  | .describe => .error (respond 200 description)
  | .checkHealth => .ok .checkHealth
  | .createWorkspace => ((readSeed body).map .createWorkspace).mapError bodyRefusal
  | .deleteWorkspace id => .ok (.deleteWorkspace id)
  | .listFiles id => .ok (.listFiles id)
  | .readSnapshot id => .ok (.readSnapshot id)
  | .replaceSnapshot id =>
    ((readObject "snapshot" body).map (.replaceSnapshot id)).mapError bodyRefusal
  | .runCommand id => ((readCommand body).map (.runCommand id)).mapError bodyRefusal
  | .callTool id name => ((readObject "arguments" body).map (.callTool id name)).mapError bodyRefusal
  | .showPreview id => .ok (.showPreview id ((parameter? parameters "entry").map .ofString))

/-- The call that a request with a valid target leads to. -/
def receiveAt (target : Target) (request : Request) : Except Answering Call :=
  match Routing.ofPath target.path with
  | .unknown => .error (refuse 404 "Not Found")
  | .moved => .error (.ok moved)
  | .found resource =>
    match resource.action? request.method.toUpper with
    | none => .error (refuse 405 "Method Not Allowed")
    | some action => callFor (request.parameters?.getD target.query) request.body action

/-- The call that a request leads to; no handler is called for a head. -/
def receive (request : Request) : Except Answering Call :=
  match Target.ofText? request.target with
  | none => .error (.error (.target request.target))
  | some target =>
    if request.method.toUpper = "HEAD" then
      (receiveAt target request).mapError (Except.map headOf)
    else receiveAt target request

end Stack

/-- The framework that the server runs with. -/
def stack : Framework :=
  { receive := Stack.receive, write := Stack.write }

/-- Answer a request; a workspace that it creates gets the given id. -/
def answer (parser : Parser) (newId : String) (store : Store) (request : Request) : Answer :=
  stack.answer parser newId store request

end LivePreview.Http
