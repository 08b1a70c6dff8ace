/-
  LivePreview.Http.Stack.Target
  ─────────────────────────────
  **The target of a request.**

  A target is a reference: a scheme, an authority, a path, and behind a question mark the
  parameters; what stands behind a hash sign is dropped (`Reference`).  Whatever scheme
  and host it names, a target leads to this server.  Of a reference without one of them
  only the path and the parameters count, however many slashes stand in front of the
  path.  Segments of dots are resolved before percent signs are.

  Not every target can be sent (`Target.ofText?`).
-/
import LivePreview.Http.Message
import LivePreview.Http.Stack.HostName
import LivePreview.Number.Numeral
import LivePreview.Text.Origin
import LivePreview.Text.Percent

namespace LivePreview.Http.Stack

open LivePreview.Text

/-! ## §1. References -/

/-- A reference, cut into its parts. -/
structure Reference where
  scheme : List Char
  authority : List Char
  path : List Char
  query? : Option (List Char)

namespace Reference

/-- A character that may stand in a scheme behind its first letter. -/
def isSchemeChar (c : Char) : Bool :=
  c.isAlphanum || c == '+' || c == '-' || c == '.'

/-- The scheme in front of a colon and what follows; a scheme may be empty. -/
def splitScheme (cs : List Char) : List Char × List Char :=
  let scheme := cs.takeWhile (· != ':')
  match cs.dropWhile (· != ':') with
  | _ :: rest =>
    if scheme.head?.all Char.isAlpha && scheme.all isSchemeChar then
      (scheme.map Char.toLower, rest)
    else ([], cs)
  | [] => ([], cs)

/-- The authority behind two slashes and what follows. -/
def splitAuthority : List Char → List Char × List Char
  | '/' :: '/' :: rest => (rest.takeWhile (· != '/'), rest.dropWhile (· != '/'))
  | cs => ([], cs)

/-- Cut a reference into its parts. -/
def ofChars (cs : List Char) : Reference :=
  let cs := cs.takeWhile (· != '#')
  let (scheme, hierarchy) := splitScheme (cs.takeWhile (· != '?'))
  let (authority, path) := splitAuthority hierarchy
  let query? := match cs.dropWhile (· != '?') with
    | _ :: query => some query
    | [] => none
  ⟨scheme, authority, path, query?⟩

end Reference

/-! ## §2. Authorities -/

/-- An authority, cut into its parts. -/
structure Authority where
  /-- What stands in front of the last `@`. -/
  user : List Char
  /-- The host, with its brackets if it has some. -/
  host : List Char
  /-- What stands behind the host and a colon. -/
  port : List Char

namespace Authority

/-- The host at the front of a text and what follows it.  A host in brackets reaches to the last
bracket, any other to the first colon. -/
def splitHost (cs : List Char) : List Char × List Char :=
  if cs.head? == some '[' && cs.contains ']' then
    let rest := (cs.reverse.takeWhile (· != ']')).reverse
    (cs.take (cs.length - rest.length), rest)
  else (cs.takeWhile (· != ':'), cs.dropWhile (· != ':'))

/-- Cut an authority into its parts. -/
def ofChars (cs : List Char) : Authority :=
  let place := (cs.reverse.takeWhile (· != '@')).reverse
  let (host, rest) := splitHost place
  let port := match rest with
    | ':' :: port => port
    | port => port
  ⟨cs.take (cs.length - place.length - 1), host, port⟩

/-- The authority names nothing at all. -/
def isEmpty (authority : Authority) : Bool :=
  authority.user.isEmpty && authority.host.isEmpty && authority.port.isEmpty

/-- Digits, and then something that satisfies a condition. -/
def digitsThen (rest : List Char → Bool) : List Char → Bool
  | c :: cs => c.isDigit && (rest cs || digitsThen rest cs)
  | [] => false

/-- The host is made like a dotted address: four runs of digits with one character between
them. -/
def looksDotted : List Char → Bool :=
  let separated := fun rest => digitsThen fun cs => !cs.isEmpty && rest (cs.drop 1)
  separated (separated (separated (digitsThen List.isEmpty)))

/-- The address in the brackets of a host. -/
def bracketed? (host : List Char) : Option (List Char) :=
  if host.head? == some '[' && host.getLast? == some ']' then some ((host.drop 1).dropLast)
  else none

/-- The host may be named. -/
def isValidHost (host : List Char) : Bool :=
  if looksDotted host then HostAddress.isDotted host
  else
    match bracketed? host with
    | some address => HostAddress.isColoned address
    | none => host.all (·.toNat < 0x80) || HostName.isValid (String.ofList host)

/-- The port is a number or not given. -/
def isValidPort (port : List Char) : Bool :=
  port.isEmpty || (Number.readDecimal? (String.ofList port)).isSome

/-- The host and the port may be named. -/
def isValid (authority : Authority) : Bool :=
  isValidHost authority.host && isValidPort authority.port

end Authority

/-! ## §3. Paths -/

/-- Put a segment behind those of a path, or resolve it if it consists of dots. -/
def addSegment (segments : List (List Char)) (segment : List Char) : List (List Char) :=
  if segment == ['.'] then segments
  else if segment == ['.', '.'] then
    if segments == [[]] then segments else segments.dropLast
  else segments ++ [segment]

/-- The path without segments of dots. -/
def withoutDots (path : List Char) : List Char :=
  ['/'].intercalate ((path.splitOn '/').foldl addSegment [])

/-- The path, in which exactly one slash stands in front. -/
def rooted (path : List Char) : List Char :=
  '/' :: path.dropWhile (· == '/')

/-! ## §4. Targets -/

/-- The target of a request. -/
structure Target where
  path : List Char
  /-- The names and values of the parameters. -/
  query : List (String × String)

namespace Target

/-- A character of ASCII that cannot be printed. -/
def isControl (c : Char) : Bool :=
  c.toNat < 0x20 || c.toNat == 0x7F

/-- The longest target that is sent, and the longest part of one, in characters. -/
def lengthLimit : Nat := 65536

/-- A character that is sent as it is. -/
def isSent (plain : List Char) (c : Char) : Bool :=
  0x20 < c.toNat && c.toNat < 0x7F && !plain.contains c

/-- How many characters are sent for a text, three for each byte of a character that is not sent
as it is. -/
def sentLength (escaped cs : List Char) : Nat :=
  cs.foldl (fun n c => n + if isSent escaped c then 1 else 3 * (String.utf8EncodeChar c).length) 0

/-- The path and the parameters of a reference can be sent. -/
def fits (path : List Char) (query? : Option (List Char)) : Bool :=
  sentLength "\"#<>?`\x7b\x7d".toList path ≤ lengthLimit
    && (query?.all fun query => sentLength "\"#<>".toList query ≤ lengthLimit)

/-- The reference can be sent.  Without scheme and authority its path has neither two slashes nor
a colon in front. -/
def isWellFormed (reference : Reference) (authority : Authority) : Bool :=
  authority.isValid &&
    (!reference.scheme.isEmpty || !authority.isEmpty
      || !(['/', '/'].isPrefixOf reference.path || reference.path.head? == some ':'))

/-- The path of a reference without segments of dots, where it is resolved at once. -/
def resolvedPath (reference : Reference) (authority : Authority) : List Char :=
  if reference.scheme.isEmpty && authority.isEmpty then reference.path
  else withoutDots reference.path

/-- The target with a path and parameters. -/
def ofParts (path : List Char) (query? : Option (List Char)) : Target :=
  { path := Percent.decode path, query := parametersOf (query?.getD []) }

/-- The path of a reference that names the server it leads to; the empty path stands for the
root. -/
def completePath (path : List Char) : List Char :=
  if path.isEmpty then ['/'] else path

/-- Read a target; `none` if it cannot be sent. -/
def ofText? (text : String) : Option Target :=
  let cs := text.toList
  let reference := Reference.ofChars cs
  let authority := Authority.ofChars reference.authority
  if lengthLimit < cs.length || cs.any isControl || !isWellFormed reference authority then none
  else
    let path := resolvedPath reference authority
    if reference.scheme.isEmpty || authority.host.isEmpty then
      if fits (rooted path) reference.query? then
        some (ofParts (withoutDots (rooted path)) reference.query?)
      else none
    else some (ofParts (completePath path) reference.query?)

end Target

end LivePreview.Http.Stack
