/-
  LivePreview.Http.Stack.Form
  ───────────────────────────
  **The forms that requests fill in.**

  The body of a request is JSON in one of the encodings that JSON texts may have.  An empty
  body is no body at all, which is not the same as the value null.

  A JSON text begins with characters of ASCII, so the zeros among its first bytes tell
  how many bytes a unit has and which of them comes first (`Encoding.ofBytes`).  A text
  without such zeros is UTF-8, perhaps with a mark in front.

  A form is a JSON object with known fields and no others.  Reading one yields what
  it says, or the list of everything that is wrong with it: first the known fields in
  their order, then the unknown ones as they come.
-/
import LivePreview.Http.Handler
import LivePreview.Http.Message
import LivePreview.Json.Reader

namespace LivePreview.Http.Stack

/-! ## §1. Encodings of a JSON text -/

/-- The encodings of a JSON text. -/
inductive Encoding where
  | utf8
  | utf16 (bigEndian : Bool)
  | utf32 (bigEndian : Bool)
  deriving DecidableEq, Repr

namespace Encoding

/-- The encoding that the first bytes of a text show. -/
def ofBytes : List UInt8 → Encoding
  | a :: b :: c :: d :: _ =>
    if a == 0 then if b == 0 then .utf32 true else .utf16 true
    else if b == 0 then if c == 0 && d == 0 then .utf32 false else .utf16 false
    else .utf8
  | [a, b] => if a == 0 then .utf16 true else if b == 0 then .utf16 false else .utf8
  | _ => .utf8

/-- The units of two bytes each; `none` if a byte is left over. -/
def units16? (bigEndian : Bool) : List UInt8 → Option (List Nat)
  | a :: b :: rest =>
    let unit := if bigEndian then a.toNat * 0x100 + b.toNat else b.toNat * 0x100 + a.toNat
    (units16? bigEndian rest).map (unit :: ·)
  | [_] => none
  | [] => some []

/-- The codes of four bytes each; `none` if bytes are left over or a code is none of Unicode. -/
def codes32? (bigEndian : Bool) : List UInt8 → Option (List Nat)
  | a :: b :: c :: d :: rest =>
    let digits := if bigEndian then [a, b, c, d] else [d, c, b, a]
    let code := digits.foldl (fun n digit => n * 0x100 + digit.toNat) 0
    if 0x10FFFF < code then none else (codes32? bigEndian rest).map (code :: ·)
  | [] => some []
  | _ => none

end Encoding

/-! ## §2. Bodies -/

/-- How the body of a request cannot be read. -/
inductive BodyFault where
  | issues (issues : List Issue)
  /-- The bytes are no text, or the body has a number or a nesting that cannot be read. -/
  | unreadable

/-- The text without the mark that may stand in front of it. -/
def withoutMark : List Char → List Char
  | '\uFEFF' :: cs => cs
  | cs => cs

/-- The text of a body, whose bytes are those of `body` in UTF-8.  Two units of UTF-16 may be one
character, but two codes of UTF-32 are never. -/
def bodyText? (body : String) : Option Text :=
  let bytes := body.toUTF8.data.toList
  match Encoding.ofBytes bytes with
  | .utf8 => some (.ofChars (withoutMark body.toList))
  | .utf16 bigEndian =>
    (Encoding.units16? bigEndian bytes).map fun units => .ofParts (units.map .unit)
  | .utf32 bigEndian =>
    (Encoding.codes32? bigEndian bytes).map fun codes => ⟨codes.map .ofNat⟩

/-- The value of a body that is not empty. -/
def bodyValue (body : String) : Except BodyFault Json :=
  match bodyText? body with
  | none => .error .unreadable
  | some text =>
    match Json.read text with
    | .ok value => .ok value
    | .error ⟨.tooManyDigits _, _⟩ | .error ⟨.tooDeep, _⟩ => .error .unreadable
    | .error fault => .error (.issues [⟨.jsonInvalid, .position fault.position, .object []⟩])

/-- The fields of a body, whose names can be expressed in bytes. -/
def bodyFields (body : String) : Except BodyFault (Json.Fields) :=
  if body.isEmpty then .error (.issues [⟨.missing, .whole, .null⟩])
  else
    match bodyValue body with
    | .ok (.object fields) =>
      match fields.find? fun (name, _) => !name.isEncodable with
      | some (name, _) => .error (.issues [⟨.stringUnicode, .whole, .text name⟩])
      | none => .ok fields
    | .ok value => .error (.issues [⟨.modelType, .whole, value⟩])
    | .error fault => .error fault

/-! ## §3. Fields -/

/-- The issues of the fields that are not known. -/
def extraIssues (known : List Text) (fields : Json.Fields) : List Issue :=
  (fields.filter fun (name, _) => !known.contains name).map fun (name, value) =>
    ⟨.extraForbidden, .field name, value⟩

/-- What a field holds, or what is wrong with it. -/
abbrev Checked (α : Type) := Except Issue α

/-- The issue of a field, if there is one. -/
def issueOf {α : Type} : Checked α → List Issue
  | .ok _ => []
  | .error issue => [issue]

/-- A field that must be there. -/
def needed (fields : Json.Fields) (name : Text) : Checked Json :=
  match Table.get? fields name with
  | some value => .ok value
  | none => .error ⟨.missing, .field name, .object fields⟩

/-- The value as an object. -/
def asObject (name : Text) : Json → Checked (Json.Fields)
  | .object fields => .ok fields
  | value => .error ⟨.dictType, .field name, value⟩

/-- The value as a text. -/
def asText (name : Text) : Json → Checked Text
  | .text s => .ok s
  | value => .error ⟨.stringType, .field name, value⟩

/-- The value as a text that can be expressed in bytes and whose length lies within bounds. -/
def asTextWithin (name : Text) (least most : Nat) (value : Json) : Checked Text := do
  let s ← asText name value
  if !s.isEncodable then throw ⟨.stringUnicode, .field name, value⟩
  if s.length < least then throw ⟨.stringTooShort, .field name, value⟩
  if most < s.length then throw ⟨.stringTooLong, .field name, value⟩
  return s

/-- The value as the name of an operation. -/
def asOperation (name : Text) (value : Json) : Checked String :=
  match value.string?.filter fun s => (Operation.ofName? s).isSome with
  | some s => .ok s
  | none => .error ⟨.literalError, .field name, value⟩

/-- A field that may be missing or null. -/
def optional {α : Type} (fields : Json.Fields) (name : Text)
    (f : Json → Checked α) : Checked (Option α) :=
  match Table.get? fields name with
  | none | some .null => .ok none
  | some value => (f value).map some

/-- The longest path that is taken, in characters. -/
def pathLimit : Nat := 1024

/-! ## §4. Forms -/

/-- The object in the only field of a body. -/
def readObject (name : Text) (body : String) :
    Except BodyFault (Json.Fields) := do
  let fields ← bodyFields body
  let value := needed fields name >>= asObject name
  match value, issueOf value ++ extraIssues [name] fields with
  | .ok object, [] => return object
  | _, issues => throw (.issues issues)

/-- The snapshot in the only field of a body, where there is one. -/
def readSeed (body : String) : Except BodyFault (Option Json.Fields) := do
  let fields ← bodyFields body
  let value := optional fields "snapshot" (asObject "snapshot")
  match value, issueOf value ++ extraIssues ["snapshot"] fields with
  | .ok object?, [] => return object?
  | _, issues => throw (.issues issues)

/-- The command that a body describes. -/
def readCommand (body : String) : Except BodyFault CommandRequest := do
  let fields ← bodyFields body
  let op := needed fields "op" >>= asOperation "op"
  let path := needed fields "path" >>= asTextWithin "path" 1 pathLimit
  let content := optional fields "content" (asText "content")
  let newPath := optional fields "new_path" (asTextWithin "new_path" 0 pathLimit)
  match op, path, content, newPath,
      extraIssues ["op", "path", "content", "new_path"] fields with
  | .ok op, .ok path, .ok content?, .ok newPath?, [] =>
    return { op, path, content?, newPath? }
  | _, _, _, _, extra =>
    throw (.issues (issueOf op ++ issueOf path ++ issueOf content ++ issueOf newPath
      ++ extra))

end LivePreview.Http.Stack
