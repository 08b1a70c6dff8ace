/-
  LivePreview.Json.Reader
  ───────────────────────
  **Reading JSON values, and where and why a text is none.**

  The reader takes one value with blanks around it.  Beyond the standard it knows
  `NaN`, `Infinity` and `-Infinity`; a whole number of any size up to
  `Number.maxDigits` digits is exact, any other number is the nearest double, and a
  repeated field keeps its first place and its last value.  Two escapes may make up one
  character, and one may leave half of a surrogate pair in a text.  Arrays and objects
  may lie inside one another up to a limit (`depthLimit`).

  A fault has a cause and a position, the number of characters in front of it
  (`Fault.position`), from which its line follows (`lineAt`).
-/
import LivePreview.Json.Basic
import LivePreview.Text.Basic

namespace LivePreview.Json

open LivePreview.Number

/-! ## §1. Faults -/

/-- Why a text is no JSON value. -/
inductive Cause where
  | expectingValue
  | expectingName
  | expectingColon
  | expectingComma
  | unterminated
  | controlCharacter
  | unknownEscape
  | unitEscape
  | extraData
  | byteOrderMark
  /-- A whole number has too many digits to be read. -/
  | tooManyDigits (count : Nat)
  /-- Too many arrays and objects lie inside one another. -/
  | tooDeep
  deriving DecidableEq, Repr

/-- The wording of a cause. -/
def Cause.message : Cause → String
  | .expectingValue => "Expecting value"
  | .expectingName => "Expecting property name enclosed in double quotes"
  | .expectingColon => "Expecting ':' delimiter"
  | .expectingComma => "Expecting ',' delimiter"
  | .unterminated => "Unterminated string starting at"
  | .controlCharacter => "Invalid control character at"
  | .unknownEscape => "Invalid \\escape"
  | .unitEscape => "Invalid \\uXXXX escape"
  | .extraData => "Extra data"
  | .byteOrderMark => "Unexpected UTF-8 BOM (decode using utf-8-sig)"
  | .tooManyDigits count =>
    "Exceeds the limit (4300 digits) for integer string conversion: value has "
      ++ toString count ++ " digits; use sys.set_int_max_str_digits() to increase the limit"
  | .tooDeep => "Too many levels of arrays and objects"

/-- A cause and the number of characters in front of the place where it shows. -/
structure Fault where
  cause : Cause
  position : Nat
  deriving DecidableEq, Repr

/-- The line of a position in a text, counted from one. -/
def lineAt (text : Text) (position : Nat) : Nat :=
  (text.points.take position).count (.char '\n') + 1

/-- What a reading step leaves: a result and what stands behind it, or a cause and what stands
from the place on where it shows. -/
abbrev Reading (α : Type) := Except (Cause × List CodePoint) (α × List CodePoint)

/-! ## §2. Texts -/

/-- The character that a letter behind a backslash stands for. -/
def escaped? : Char → Option Char
  | '"' => some '"'
  | '\\' => some '\\'
  | '/' => some '/'
  | 'b' => some '\x08'
  | 'f' => some '\x0c'
  | 'n' => some '\n'
  | 'r' => some '\r'
  | 't' => some '\t'
  | _ => none

/-- The value of a hexadecimal digit. -/
def digit? (point : CodePoint) : Option Nat :=
  point.char?.bind Text.hexDigit?

/-- The unit that four hexadecimal digits stand for. -/
def unit? (a b c d : CodePoint) : Option Nat := do
  let a ← digit? a
  let b ← digit? b
  let c ← digit? c
  let d ← digit? d
  return ((a * 16 + b) * 16 + c) * 16 + d

/-- Put a part in front of the parts that are read. -/
def consPart (part : Text.Part) : Reading (List Text.Part) → Reading (List Text.Part)
  | .ok (parts, rest) => .ok (part :: parts, rest)
  | .error e => .error e

/-- The parts of a text up to its closing quote; `opening` starts at its opening quote.  An
escape of a unit needs something behind its four digits. -/
def readParts (opening : List CodePoint) : List CodePoint → Reading (List Text.Part)
  | [] => .error (.unterminated, opening)
  | .char '"' :: rest => .ok ([], rest)
  | [.char '\\'] => .error (.unterminated, opening)
  | .char '\\' :: .char 'u' :: a :: b :: c :: d :: next :: rest =>
    match unit? a b c d with
    | some code => consPart (.unit code) (readParts opening (next :: rest))
    | none => .error (.unitEscape, .char 'u' :: a :: b :: c :: d :: next :: rest)
  | .char '\\' :: c :: rest =>
    if c == .char 'u' then .error (.unitEscape, c :: rest)
    else
      match c.char?.bind escaped? with
      | some e => consPart (.point e) (readParts opening rest)
      | none => .error (.unknownEscape, .char '\\' :: c :: rest)
  | c :: rest =>
    if c.toNat < 0x20 then .error (.controlCharacter, c :: rest)
    else consPart (.point c) (readParts opening rest)

/-- The text behind an opening quote, which is the first character of `opening`. -/
def readText (opening : List CodePoint) : Reading Text :=
  match readParts opening (opening.drop 1) with
  | .ok (parts, rest) => .ok (.ofParts parts, rest)
  | .error e => .error e

/-! ## §3. Numbers -/

/-- The digits in front. -/
def digitsOf (points : List CodePoint) : List CodePoint :=
  points.takeWhile (·.is Char.isDigit)

/-- The fraction behind a whole part, with its point. -/
def fractionOf : List CodePoint → List CodePoint
  | .char '.' :: rest =>
    let digits := digitsOf rest
    if digits.isEmpty then [] else .char '.' :: digits
  | _ => []

/-- The mark of an exponent and the sign behind it. -/
def exponentMark : List CodePoint → List CodePoint
  | e :: s :: _ =>
    if e.is fun c => c == 'e' || c == 'E' then
      if s.is fun c => c == '+' || c == '-' then [e, s] else [e]
    else []
  | _ => []

/-- The exponent behind a number, with its mark. -/
def exponentOf (points : List CodePoint) : List CodePoint :=
  let mark := exponentMark points
  let digits := digitsOf (points.drop mark.length)
  if mark.isEmpty || digits.isEmpty then [] else mark ++ digits

/-- The whole part of a number without its sign. -/
def wholeOf : List CodePoint → List CodePoint
  | .char '0' :: _ => [.char '0']
  | points => digitsOf points

/-- The sign in front of a number. -/
def signOf : List CodePoint → List CodePoint
  | .char '-' :: _ => [.char '-']
  | _ => []

/-- Read a number. -/
def readNumber (points : List CodePoint) : Reading Json :=
  let sign := signOf points
  let afterSign := points.drop sign.length
  let whole := wholeOf afterSign
  if whole.isEmpty then .error (.expectingValue, points)
  else
    let afterWhole := afterSign.drop whole.length
    let fraction := fractionOf afterWhole
    let afterFraction := afterWhole.drop fraction.length
    let exponent := exponentOf afterFraction
    let rest := afterFraction.drop exponent.length
    if fraction.isEmpty && exponent.isEmpty then
      if whole.length ≤ maxDigits then
        let n := ofDigits 10 (whole.map fun point => point.toNat - '0'.toNat)
        .ok (.int (signed (!sign.isEmpty) n), rest)
      else .error (.tooManyDigits whole.length, points)
    else
      let numeral := (sign ++ whole ++ fraction ++ exponent).filterMap CodePoint.char?
      match Binary64.read? (String.ofList numeral) with
      | some x => .ok (.double x, rest)
      | none => .error (.expectingValue, points)

/-! ## §4. Values -/

/-- The blanks of JSON. -/
def isSpace (c : Char) : Bool :=
  c == ' ' || c == '\t' || c == '\n' || c == '\r'

/-- Drop the blanks in front. -/
def skip (points : List CodePoint) : List CodePoint :=
  points.dropWhile (·.is isSpace)

/-- The words that are values. -/
def words : Fields := [
  ("null", .null), ("true", .bool true), ("false", .bool false), ("NaN", .double .nan),
  ("Infinity", .double (.infinity false)), ("-Infinity", .double (.infinity true))]

/-- Read a word or a number. -/
def readPlain (points : List CodePoint) : Reading Json :=
  match words.find? fun (word, _) => word.points.isPrefixOf points with
  | some (word, value) => .ok (value, points.drop word.length)
  | none => readNumber points

mutual

/-- Read a value that starts at the first character; at most `levels` arrays and objects may lie
inside one another. -/
def readValue (levels : Nat) : Nat → List CodePoint → Reading Json
  | 0, points => .error (.expectingValue, points)
  | fuel + 1, points =>
    match points, levels with
    | .char '"' :: _, _ =>
      match readText points with
      | .ok (s, rest) => .ok (.text s, rest)
      | .error e => .error e
    | .char '\x7b' :: _, 0 | .char '[' :: _, 0 => .error (.tooDeep, points)
    | .char '\x7b' :: rest, levels + 1 =>
      match skip rest with
      | .char '\x7d' :: rest => .ok (.object [], rest)
      | start =>
        match readFields levels fuel start with
        | .ok (fields, rest) => .ok (.object (Table.ofPairs fields), rest)
        | .error e => .error e
    | .char '[' :: rest, levels + 1 =>
      match skip rest with
      | .char ']' :: rest => .ok (.array [], rest)
      | start =>
        match readItems levels fuel start with
        | .ok (items, rest) => .ok (.array items, rest)
        | .error e => .error e
    | _, _ => readPlain points

/-- Read the items of an array from the first one to the closing bracket. -/
def readItems (levels : Nat) : Nat → List CodePoint → Reading (List Json)
  | 0, points => .error (.expectingValue, points)
  | fuel + 1, points =>
    match readValue levels fuel points with
    | .error e => .error e
    | .ok (item, rest) =>
      match skip rest with
      | .char ']' :: rest => .ok ([item], rest)
      | .char ',' :: rest =>
        match readItems levels fuel (skip rest) with
        | .ok (items, rest) => .ok (item :: items, rest)
        | .error e => .error e
      | rest => .error (.expectingComma, rest)

/-- Read the fields of an object from the first name to the closing brace. -/
def readFields (levels : Nat) : Nat → List CodePoint → Reading (Fields)
  | 0, points => .error (.expectingName, points)
  | fuel + 1, points =>
    match points with
    | .char '"' :: _ =>
      match readText points with
      | .error e => .error e
      | .ok (name, rest) =>
        match skip rest with
        | .char ':' :: rest =>
          match readValue levels fuel (skip rest) with
          | .error e => .error e
          | .ok (value, rest) =>
            match skip rest with
            | .char '\x7d' :: rest => .ok ([(name, value)], rest)
            | .char ',' :: rest =>
              match readFields levels fuel (skip rest) with
              | .ok (fields, rest) => .ok ((name, value) :: fields, rest)
              | .error e => .error e
            | rest => .error (.expectingComma, rest)
        | rest => .error (.expectingColon, rest)
    | _ => .error (.expectingName, points)

end

/-- Read a text that is one value with blanks around it; at most `levels` arrays and objects may
lie inside one another. -/
def readWithin (levels : Nat) (text : Text) : Except Fault Json :=
  let points := text.points
  let position := fun rest : List CodePoint => points.length - rest.length
  if points.head? == some (.char '\uFEFF') then .error ⟨.byteOrderMark, 0⟩
  else
    match readValue levels (2 * points.length + 2) (skip points) with
    | .error (cause, rest) => .error ⟨cause, position rest⟩
    | .ok (value, rest) =>
      match skip rest with
      | [] => .ok value
      | rest => .error ⟨.extraData, position rest⟩

/-- How many arrays and objects may lie inside one another. -/
def depthLimit : Nat := 990

/-- Read a text that is one value with blanks around it. -/
def read (text : Text) : Except Fault Json :=
  readWithin depthLimit text

end LivePreview.Json
