/-
  LivePreview.Text.Origin
  ───────────────────────
  **The origin of a URL.**

  A URL is first cleaned: controls and spaces are dropped from its front, tabs and
  line breaks everywhere.  The part before the first colon is its scheme if it
  starts with a letter and holds only letters, digits, `+`, `-` and `.`; the text
  after `//`, up to the next `/`, `?` or `#`, is its authority.  The origin is the
  scheme and the authority together, and it is empty if either is missing.

  An authority may be malformed: by a bracket without its partner, by text between a
  bracketed host and its neighbours, by a host that is no address although brackets
  stand in the authority, or by a character that would turn into a delimiter when the
  host is brought into its compatibility form.

  Numeric host addresses are of two sorts:

  * `isDotted` — four decimal octets, none above 255 and none padded with zeros.
  * `isColoned` — eight groups of at most four hexadecimal digits, of which one run
    may be left out as `::`, the last two may be a dotted address, and a zone may
    follow after a percent sign.
-/
import LivePreview.Text.Basic
import LivePreview.Text.Quoted

namespace LivePreview.Text

/-! ## §1. Numeric host addresses -/

namespace HostAddress

/-- One octet of a dotted address. -/
def isOctet (cs : List Char) : Bool :=
  !cs.isEmpty && cs.length ≤ 3 && cs.all Char.isDigit && (cs == ['0'] || cs.head? != some '0')
    && cs.foldl (fun n c => n * 10 + (c.toNat - '0'.toNat)) 0 ≤ 255

/-- Four octets between points. -/
def isDotted (cs : List Char) : Bool :=
  let octets := cs.splitOn '.'
  octets.length == 4 && octets.all isOctet

/-- One group of a coloned address. -/
def isGroup (cs : List Char) : Bool :=
  !cs.isEmpty && cs.length ≤ 4 && cs.all fun c => (hexDigit? c).isSome

/-- The groups between the colons, a dotted end counting as two groups; `none` if the last part
has a point and is no dotted address. -/
def groups? (cs : List Char) : Option (List (List Char)) :=
  let parts := cs.splitOn ':'
  if parts.length < 3 then none
  else
    match parts.getLast? with
    | some final =>
      if !final.contains '.' then some parts
      else if isDotted final then some (parts.dropLast ++ [['0'], ['0']])
      else none
    | none => none

/-- The groups make up an address: all eight of them, or fewer with one gap. -/
def groupsFit (parts : List (List Char)) : Bool :=
  let inner := (parts.drop 1).dropLast
  let before := parts.takeWhile (!·.isEmpty)
  match inner.filter (·.isEmpty) with
  | [] => parts.length == 8 && parts.all isGroup
  | [_] =>
    let opensEmpty := parts.head? == some []
    let closesEmpty := parts.getLast? == some []
    let gap := if opensEmpty then 1 + ((parts.drop 1).takeWhile (!·.isEmpty)).length
      else before.length
    let high := if opensEmpty then [] else parts.take gap
    let low := if closesEmpty then [] else parts.drop (gap + 1)
    (!opensEmpty || gap == 1) && (!closesEmpty || parts.length - gap - 1 == 1)
      && high.length + low.length < 8 && (high ++ low).all isGroup
  | _ => false

/-- Groups between colons, with an optional zone. -/
def isColoned (cs : List Char) : Bool :=
  let address := cs.takeWhile (· != '%')
  let zoned := match cs.dropWhile (· != '%') with
    | [] => true
    | _ :: zone => !zone.isEmpty && !zone.contains '%'
  !cs.contains '/' && zoned &&
    match groups? address with
    | some parts => parts.length ≤ 9 && groupsFit parts
    | none => false

end HostAddress

/-! ## §2. Origins -/

/-- Why the authority of a URL is malformed. -/
inductive UrlFault where
  /-- A bracket stands without its partner, or text stands right before or behind a bracketed
  host. -/
  | strayBrackets
  /-- The host starts like a future address and is none. -/
  | futureAddress
  /-- The host is a dotted address. -/
  | dottedInBrackets
  /-- The host is no address at all. -/
  | notAnAddress (host : Text)
  /-- The authority holds a character whose compatibility form has a delimiter. -/
  | hiddenDelimiter (authority : Text)
  deriving DecidableEq, Repr

/-- The wording of a fault. -/
def UrlFault.message : UrlFault → Text
  | .strayBrackets => "Invalid IPv6 URL"
  | .futureAddress => "IPvFuture address is invalid"
  | .dottedInBrackets => "An IPv4 address cannot be in brackets"
  | .notAnAddress host => quoted host ++ " does not appear to be an IPv4 or IPv6 address"
  | .hiddenDelimiter authority =>
    "netloc '" ++ authority ++ "' contains invalid characters under NFKC normalization"

/-- The characters whose compatibility form holds one of the delimiters of a URL. -/
def hiddenDelimiters : List Nat :=
  [0x2047, 0x2048, 0x2049, 0x2100, 0x2101, 0x2105, 0x2106, 0x2A74, 0xFE13, 0xFE16, 0xFE55,
    0xFE56, 0xFE5F, 0xFE6B, 0xFF03, 0xFF0F, 0xFF1A, 0xFF1F, 0xFF20]

/-- A URL cut into its scheme, its authority and the rest. -/
structure Url where
  scheme : List CodePoint
  authority : List CodePoint
  rest : List CodePoint

/-- A character that may stand in a scheme. -/
def isSchemeChar (c : Char) : Bool :=
  c.isAlphanum || c == '+' || c == '-' || c == '.'

/-- A tab or a line break. -/
def isBreak (c : Char) : Bool :=
  c == '\t' || c == '\r' || c == '\n'

/-- The URL without leading controls and spaces, and without tabs and line breaks. -/
def cleanUrl (points : List CodePoint) : List CodePoint :=
  (points.dropWhile fun point => point.toNat ≤ 0x20).filter (!·.is isBreak)

/-- The scheme of a cleaned URL, in lower case, and what follows its colon. -/
def splitScheme (points : List CodePoint) : List CodePoint × List CodePoint :=
  let scheme := points.takeWhile (· != .char ':')
  match points.dropWhile (· != .char ':') with
  | _ :: rest =>
    if (scheme.head?.any (·.is Char.isAlpha)) && scheme.all (·.is isSchemeChar) then
      ((scheme.filterMap CodePoint.char?).map fun c => .char c.toLower, rest)
    else ([], points)
  | [] => ([], points)

/-- A character that ends an authority. -/
def endsAuthority (c : Char) : Bool :=
  c == '/' || c == '?' || c == '#'

/-- Cut a URL into its parts. -/
def Url.ofText (url : Text) : Url :=
  match splitScheme (cleanUrl url.points) with
  | (scheme, .char '/' :: .char '/' :: rest) =>
    ⟨scheme, rest.takeWhile (!·.is endsAuthority), rest.dropWhile (!·.is endsAuthority)⟩
  | (scheme, rest) => ⟨scheme, [], rest⟩

/-- The host and the port of an authority: what stands behind the last `@`. -/
def hostAndPort (authority : List CodePoint) : List CodePoint :=
  (authority.reverse.takeWhile (· != .char '@')).reverse

/-- The host of an authority that holds brackets.  A host in brackets stands at the very front,
and at most a port follows it; `none` if other text stands there. -/
def hostBesideBrackets? (authority : List CodePoint) : Option Text :=
  let place := hostAndPort authority
  let bracketed := (place.dropWhile (· != .char '[')).drop 1
  if !place.contains (.char '[') then some ⟨place.takeWhile (· != .char ':')⟩
  else if place.head? != some (.char '[') then none
  else if ((bracketed.dropWhile (· != .char ']')).drop 1).head?.any (· != .char ':') then none
  else some ⟨bracketed.takeWhile (· != .char ']')⟩

/-- A future address: `v`, hexadecimal digits, a point and something more. -/
def isFutureAddress : List Char → Bool
  | 'v' :: cs =>
    let version := cs.takeWhile fun c => (hexDigit? c).isSome
    match cs.dropWhile fun c => (hexDigit? c).isSome with
    | '.' :: rest => !version.isEmpty && !rest.isEmpty
    | _ => false
  | _ => false

/-- What is wrong with a host that has to be an address which brackets may hold.  What stands for
a half is no character of an address either. -/
def hostFault? (host : Text) : Option UrlFault :=
  let cs := host.withoutHalves.toList
  if cs.head? == some 'v' then
    if isFutureAddress cs then none else some .futureAddress
  else if HostAddress.isDotted cs then some .dottedInBrackets
  else if HostAddress.isColoned cs then none
  else some (.notAnAddress host)

/-- What is wrong with the brackets of an authority, if anything. -/
def bracketFault? (authority : List CodePoint) : Option UrlFault :=
  if authority.contains (.char '[') != authority.contains (.char ']') then some .strayBrackets
  else if !authority.contains (.char '[') then none
  else
    match hostBesideBrackets? authority with
    | none => some .strayBrackets
    | some host => hostFault? host

/-- What is wrong with an authority, if anything. -/
def authorityFault? (authority : List CodePoint) : Option UrlFault :=
  match bracketFault? authority with
  | some fault => some fault
  | none =>
    if authority.any fun point => hiddenDelimiters.contains point.toNat then
      some (.hiddenDelimiter ⟨authority⟩)
    else none

/-- The scheme and authority of a URL, or the empty text if it lacks one of them. -/
def origin (url : Text) : Except UrlFault Text :=
  let parts := Url.ofText url
  match authorityFault? parts.authority with
  | some fault => .error fault
  | none =>
    if parts.scheme.isEmpty || parts.authority.isEmpty then .ok ""
    else .ok (⟨parts.scheme⟩ ++ "://" ++ ⟨parts.authority⟩)

end LivePreview.Text
