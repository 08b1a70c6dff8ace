/-
  LivePreview.Module.Basic
  ────────────────────────
  **From a file to a module that a page can run.**

  The extension of a file decides what it becomes: a script is lowered, a style
  sheet becomes a module that puts it into the page, and a JSON file a module that
  exports its value.  Values are written into the code so that they can also stand in
  a script element of a page.

  A file may have no module (`Error`).  Apart from that a few contents make the
  transformation itself break down (`Breakdown`); they are kept apart because they
  are no property of the file that a user could be told about.
-/
import LivePreview.Json.Reader
import LivePreview.Json.Writer
import LivePreview.Lowering.Module
import LivePreview.Path.Basic
import LivePreview.Text.Basic

namespace LivePreview.Module

open LivePreview.Lowering (Dialect Options Parser)

/-! ## §1. Kinds of files -/

/-- The kinds of modules. -/
inductive Kind where
  | script
  | style
  | json
  deriving DecidableEq, Repr

/-- The word for a kind of module. -/
def Kind.word : Kind → String
  | .script => "script"
  | .style => "style"
  | .json => "json"

/-- What the content of a file is written in. -/
inductive Format where
  | script (dialect : Dialect)
  | style
  | json
  deriving DecidableEq, Repr

/-- The extensions of scripts that may hold elements. -/
def scriptExtensions : List Text := [".jsx", ".tsx", ".js", ".mjs", ".cjs"]

/-- The extensions of scripts that hold types and no elements. -/
def typescriptExtensions : List Text := [".ts", ".mts", ".cts"]

/-- The format of the files with an extension. -/
def Format.ofExtension? (extension : Text) : Option Format :=
  if scriptExtensions.contains extension then some (.script .tsx)
  else if typescriptExtensions.contains extension then some (.script .typescript)
  else if extension == ".css" then some .style
  else if extension == ".json" then some .json
  else none

/-- The format of a file. -/
def format? (path : Text) : Option Format :=
  Format.ofExtension? (Path.extension path)

/-- The file is a script. -/
def isScript (path : Text) : Bool :=
  match format? path with
  | some (.script _) => true
  | _ => false

/-- The file can become a module. -/
def isTransformable (path : Text) : Bool :=
  (format? path).isSome

/-! ## §2. Failures -/

/-- Why a file has no module. -/
inductive Fault where
  | rejected (rejection : Lowering.Rejection)
  /-- The content is no JSON value. -/
  | invalidJson (cause : Json.Cause) (line : Nat)
  | unsupportedType
  deriving DecidableEq, Repr

/-- The wording of a fault. -/
def Fault.message : Fault → String
  | .rejected rejection => rejection.cause.message
  | .invalidJson cause _ => "Invalid JSON: " ++ cause.message
  | .unsupportedType => "Unsupported file type"

/-- The line that a fault shows on. -/
def Fault.line? : Fault → Option Nat
  | .rejected rejection => some rejection.line
  | .invalidJson _ line => some line
  | .unsupportedType => none

/-- The file that has no module, and why. -/
structure Error where
  path : Text
  fault : Fault
  deriving DecidableEq, Repr

/-- A place in front of a message: the path, and the line if there is one. -/
def located (path : Text) (line? : Option Nat) (message : Text) : Text :=
  match line? with
  | some line => path ++ ":" ++ toString line ++ ": " ++ message
  | none => path ++ ": " ++ message

/-- The error in one line. -/
def Error.text (error : Error) : Text :=
  located error.path error.fault.line? error.fault.message

/-- How the transformation of a file breaks down. -/
inductive Breakdown where
  /-- The value of an enumeration member has too many digits to be written. -/
  | numeralTooLong
  /-- A whole number has too many digits to be read. -/
  | tooManyDigits (count : Nat)
  /-- A parse tree lacks a node that its grammar demands. -/
  | brokenTree
  /-- The content of the file is no text, and cannot be taken for one. -/
  | contentNotText
  /-- The content of a script is a collection of values. -/
  | sourceNotText
  /-- The source of a script holds half of a surrogate pair. -/
  | sourceNotEncodable
  /-- Too many parts of the file lie inside one another. -/
  | tooDeep
  deriving DecidableEq, Repr

/-- The wording of a breakdown. -/
def Breakdown.message : Breakdown → String
  | .numeralTooLong =>
    "Exceeds the limit (4300 digits) for integer string conversion; "
      ++ "use sys.set_int_max_str_digits() to increase the limit"
  | .tooManyDigits count => (Json.Cause.tooManyDigits count).message
  | .brokenTree => "The parse tree lacks a node"
  | .contentNotText => "The content of the file is no text"
  | .sourceNotText => "The source of the script is no text"
  | .sourceNotEncodable => "The source of the script cannot be expressed in bytes"
  | .tooDeep => Json.Cause.tooDeep.message

end LivePreview.Module

namespace LivePreview

/-- A module that a page can run. -/
structure Module where
  path : Text
  kind : Module.Kind
  code : Text
  /-- The specifiers of the imported modules, each once. -/
  imports : List Text
  /-- The specifier literals in the code. -/
  sites : List Lowering.Site
  deriving DecidableEq, Repr

namespace Module

open LivePreview.Lowering (Dialect Options Parser)

/-! ## §3. Data modules -/

/-- A code point of JSON as it stands in a script element. -/
def inertPoint (point : CodePoint) : Text :=
  if point == .char '<' then "\\u003c"
  else if point == .char '\u2028' then "\\u2028"
  else if point == .char '\u2029' then "\\u2029"
  else ⟨[point]⟩

/-- The value as an expression that can stand in a script element. -/
def inertLiteral (value : Json) : Text :=
  ⟨(value.line .unicode).points.flatMap fun point => (inertPoint point).points⟩

/-- The code of a module that puts a style sheet into the page. -/
def styleCode (path : Text) (css : Json) : Text :=
  "const css = " ++ inertLiteral css ++ ";\n"
    ++ "const style = document.createElement(\"style\");\n"
    ++ "style.setAttribute(\"data-vfs-path\", " ++ inertLiteral (.text path) ++ ");\n"
    ++ "style.textContent = css;\n"
    ++ "document.head.appendChild(style);\n"
    ++ "export default css;\n"

/-- The code of a module that exports a value. -/
def jsonCode (value : Json) : Text :=
  "export default " ++ inertLiteral value ++ ";\n"

/-! ## §4. Modules of files -/

/-- The module of a script. -/
def ofScript (parser : Parser) (options : Options) (path : Text) (dialect : Dialect)
    (source : String) : Except Breakdown (Except Error Module) :=
  match Lowering.lower parser dialect options source with
  | .ok lowered => .ok (.ok ⟨path, .script, lowered.code, lowered.imports, lowered.sites⟩)
  | .error (.rejected rejection) => .ok (.error ⟨path, .rejected rejection⟩)
  | .error .numeralTooLong => .error .numeralTooLong
  | .error .brokenTree => .error .brokenTree
  | .error (.tooManyDigits count) => .error (.tooManyDigits count)
  | .error .tooDeep => .error .tooDeep

/-- The module of a JSON file. -/
def ofJson (path text : Text) : Except Breakdown (Except Error Module) :=
  match Json.read text with
  | .ok value => .ok (.ok ⟨path, .json, jsonCode value, [], []⟩)
  | .error ⟨.tooManyDigits count, _⟩ => .error (.tooManyDigits count)
  | .error ⟨.tooDeep, _⟩ => .error .tooDeep
  | .error ⟨cause, position⟩ =>
    .ok (.error ⟨path, .invalidJson cause (Json.lineAt text position)⟩)

/-- The module of a file with a text as its content. -/
def ofText (parser : Parser) (options : Options) (path text : Text) :
    Except Breakdown (Except Error Module) :=
  match format? path with
  | some (.script dialect) =>
    match text.string? with
    | some source => ofScript parser options path dialect source
    | none =>
      if text.points.contains (.char '\x00') then
        .ok (.error ⟨path, .rejected ⟨.nulCharacter, 1⟩⟩)
      else .error .sourceNotEncodable
  | some .style => .ok (.ok ⟨path, .style, styleCode path (.text text), [], []⟩)
  | some .json => ofJson path text
  | none => .ok (.error ⟨path, .unsupportedType⟩)

/-- The module of a file with an array or an object as its content.  A style sheet may be any
value, and the text of a script is at least looked over for NUL characters. -/
def ofCollection (path : Text) (content : Json) (holdsNul : Bool) :
    Except Breakdown (Except Error Module) :=
  match format? path with
  | some (.script _) =>
    if holdsNul then .ok (.error ⟨path, .rejected ⟨.nulCharacter, 1⟩⟩) else .error .sourceNotText
  | some .style => .ok (.ok ⟨path, .style, styleCode path content, [], []⟩)
  | some .json => .error .contentNotText
  | none => .ok (.error ⟨path, .unsupportedType⟩)

/-- The module of a file. -/
def ofContent (parser : Parser) (options : Options) (path : Text) (content : Json) :
    Except Breakdown (Except Error Module) :=
  match content with
  | .text text => ofText parser options path text
  | .array items => ofCollection path content (items.contains (.text "\x00"))
  | .object fields => ofCollection path content (fields.any fun (name, _) => name == "\x00")
  | _ => .error .contentNotText

end Module

end LivePreview
