/-
  LivePreview.Http.Stack.Schema
  ─────────────────────────────
  **Schemas: what values look like.**

  A schema says what a value may be (`Schema`), and a record names the fields of an
  object and their schemas (`Record`).  Both are written as JSON for readers that know
  the rules of JSON Schema.  The titles of fields are made from their names
  (`titleOf`).
-/
import LivePreview.Json.Basic

namespace LivePreview.Http.Stack

open Json (fieldIf fieldOf?)

/-- What a value may be. -/
inductive Schema where
  | any
  | integer
  | boolean
  | text (least? : Option Nat := none) (most? : Option Nat := none)
  /-- One of some words. -/
  | word (words : List String)
  | array (items : Schema)
  /-- An object with any fields, of whose values nothing is said. -/
  | object
  /-- An object with any names of fields. -/
  | table (values : Schema)
  | orNull (schema : Schema)
  | either (first second : Schema)
  /-- What a record says. -/
  | record (name : String)
  deriving DecidableEq, Repr

/-- A field of a record. -/
structure Field where
  name : String
  schema : Schema
  isNeeded : Bool := true
  /-- The title, where it is not made from the name. -/
  title? : Option String := none
  deriving DecidableEq, Repr

/-- An object with known fields. -/
structure Record where
  name : String
  fields : List Field
  description? : Option String := none
  /-- The object may have other fields as well. -/
  isOpen : Bool := true
  deriving DecidableEq, Repr

/-- The title made from a name: its words start with capital letters. -/
def titleOf (name : String) : String :=
  " ".intercalate ((name.splitOn "_").map String.capitalize)

namespace Schema

/-- The fields that say what type a value has. -/
def typed (name : String) (more : Json.Fields := []) : Json.Fields :=
  ("type", .text name) :: more

/-- The fields that describe a schema. -/
def fields : Schema → Json.Fields
  | .any => []
  | .integer => typed "integer"
  | .boolean => typed "boolean"
  | .text least? most? =>
    typed "string" (fieldOf? "minLength" least? (fun n => .int n)
      ++ fieldOf? "maxLength" most? (fun n => .int n))
  | .word words => typed "string" [("enum", .ofWords words)]
  | .array items => typed "array" [("items", .object items.fields)]
  | .object => typed "object"
  | .table .any => typed "object" [("additionalProperties", .bool true)]
  | .table values => typed "object" [("additionalProperties", .object values.fields)]
  | .orNull schema => [("anyOf", .array [.object schema.fields, .object (typed "null")])]
  | .either first second => [("anyOf", .array [.object first.fields, .object second.fields])]
  | .record name => [("$ref", .text ("#/components/schemas/" ++ name))]

/-- The schema as a value. -/
def toJson (schema : Schema) : Json :=
  .object schema.fields

/-- The schema under a title, as a value. -/
def titled (schema : Schema) (title : String) : Json :=
  .object (schema.fields.concat ("title", .text title))

end Schema

/-- The field as a value. -/
def Field.toJson (field : Field) : Json :=
  field.schema.titled (field.title?.getD (titleOf field.name))

/-- The record as a value. -/
def Record.toJson (record : Record) : Json :=
  let needed := record.fields.filter (·.isNeeded)
  .object (Schema.typed "object" [("title", .text record.name),
      ("properties", .object (record.fields.map fun field => (field.name, field.toJson)))]
    ++ fieldIf (!needed.isEmpty) "required" (.ofWords (needed.map (·.name)))
    ++ fieldOf? "description" record.description? (fun text => .text text)
    ++ fieldIf (!record.isOpen) "additionalProperties" (.bool false))

end LivePreview.Http.Stack
