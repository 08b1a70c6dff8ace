/-
  LivePreview.Http.Message
  ────────────────────────
  **Requests and responses.**

  A request has a method, a target, and perhaps a body.  A response has a status and a
  content.  That a request is not well-formed is told by a list of issues: what is wrong
  with it, and where.
-/
import LivePreview.Json.Basic
import LivePreview.Text.Basic
import LivePreview.Text.Percent

namespace LivePreview.Http

open LivePreview.Text (Percent.decode)

/-! ## §1. Messages -/

/-- What is wrong with a part of a request. -/
inductive IssueKind where
  | missing
  | extraForbidden
  | stringType
  | stringTooShort
  | stringTooLong
  /-- A text, or the name of a field, holds half of a surrogate pair. -/
  | stringUnicode
  | literalError
  | dictType
  | modelType
  | jsonInvalid
  deriving DecidableEq, Repr

/-- The word for what is wrong. -/
def IssueKind.word : IssueKind → String
  | .missing => "missing"
  | .extraForbidden => "extra_forbidden"
  | .stringType => "string_type"
  | .stringTooShort => "string_too_short"
  | .stringTooLong => "string_too_long"
  | .stringUnicode => "string_unicode"
  | .literalError => "literal_error"
  | .dictType => "dict_type"
  | .modelType => "model_attributes_type"
  | .jsonInvalid => "json_invalid"

/-- Where in the body of a request something is wrong. -/
inductive Place where
  | whole
  | field (name : Text)
  /-- The number of characters in front of the place. -/
  | position (offset : Nat)
  deriving DecidableEq, Repr

/-- The way to a place, from the request on. -/
def Place.steps : Place → List Json
  | .whole => [.text "body"]
  | .field name => [.text "body", .text name]
  | .position offset => [.text "body", .int offset]

/-- What is wrong with a request, and where. -/
structure Issue where
  kind : IssueKind
  place : Place
  /-- The value in question: what stands at the place, or what has nothing there. -/
  input : Json

/-- A request. -/
structure Request where
  method : String
  target : String
  /-- The parameters, where they are given apart from the target and replace those in it. -/
  parameters? : Option (List (String × String)) := none
  /-- The body, empty if there is none. -/
  body : String := ""
  deriving DecidableEq, Repr

/-- The body of a response. -/
inductive Content where
  | json (value : Json)
  | html (page : Text)
  | empty
  /-- There is content, but only the head of the response was asked for. -/
  | withheld
  /-- The request is not well-formed. -/
  | issues (issues : List Issue)

/-- A response. -/
structure Response where
  status : Nat
  content : Content

/-! ## §2. Parameters -/

/-- A name or a value of a parameter: a plus sign stands for a blank. -/
def parameterText (cs : List Char) : String :=
  String.ofList (Percent.decode (cs.map fun c => if c == '+' then ' ' else c))

/-- A parameter: a name, and its value behind the first equals sign. -/
def parameterOf (cs : List Char) : String × String :=
  (parameterText (cs.takeWhile (· != '=')), parameterText ((cs.dropWhile (· != '=')).drop 1))

/-- The parameters between ampersands. -/
def parametersOf (cs : List Char) : List (String × String) :=
  ((cs.splitOn '&').filter (!·.isEmpty)).map parameterOf

end LivePreview.Http
