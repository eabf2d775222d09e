/-
Reading URLs.

The reader is a liberal one.  Controls and spaces around the text, and tabs and line
ends anywhere in it, do not count.  What has to be escaped in a part and is not gets
escaped.  The special schemes, which are the ones of the web, get more help: a
backslash is a slash there, any number of slashes may stand before the host, the port
that belongs to the scheme is left out, a host is a domain name or an address, and the
path is never empty.  Dot segments of a path are followed.
-/
import ProposerBook.Url.Basic
import ProposerBook.Url.Domain
import ProposerBook.Url.PercentEncoding

namespace ProposerBook

/-- Why a text is no URL. -/
inductive UrlError
  | relative
  | emptyHost
  | invalidDomain
  | invalidPort
  | invalidIpv4
  | invalidIpv6
  | invalidHostCharacter
  deriving DecidableEq, Repr

def UrlError.message : UrlError → String
  | .relative => "relative URL without a base"
  | .emptyHost => "empty host"
  | .invalidDomain => "invalid international domain name"
  | .invalidPort => "invalid port number"
  | .invalidIpv4 => "invalid IPv4 address"
  | .invalidIpv6 => "invalid IPv6 address"
  | .invalidHostCharacter => "invalid domain character"

namespace Url

/-! ### What is escaped in each part -/

def isControl (c : Char) : Bool := c.toNat < 0x20 || c.toNat == 0x7f

def escapedInFragment (c : Char) : Bool := isControl c || " \"<>`".toList.contains c

def escapedInQuery (special : Bool) (c : Char) : Bool :=
  isControl c || " \"#<>".toList.contains c || (special && c.toNat == 0x27)

def escapedInPath (c : Char) : Bool := escapedInFragment c || "#?\x7b\x7d".toList.contains c

def escapedInCredentials (c : Char) : Bool := escapedInPath c || "/:;=@[\\]^|".toList.contains c

/-! ### Schemes -/

/-- How a scheme is treated: as one with hosts, as the one for files, or with no help. -/
inductive SchemeKind
  | web
  | file
  | other
  deriving DecidableEq, Repr

def SchemeKind.isSpecial : SchemeKind → Bool
  | .other => false
  | _ => true

/-- The schemes that have a port of their own. -/
def defaultPorts : List (List Char × UInt16) :=
  [("http".toList, 80), ("https".toList, 443), ("ws".toList, 80), ("wss".toList, 443),
    ("ftp".toList, 21)]

def defaultPort? (scheme : List Char) : Option UInt16 := defaultPorts.lookup scheme

def schemeKind (scheme : List Char) : SchemeKind :=
  if scheme == "file".toList then .file
  else if (defaultPort? scheme).isSome then .web else .other

def isSchemeChar (c : Char) : Bool := c.isAlphanum || c == '+' || c == '-' || c == '.'

/-- The scheme in lower case, and what comes after its colon. -/
def splitScheme? (cs : List Char) : Option (List Char × List Char) :=
  match cs with
  | [] => none
  | c :: _ =>
    if !c.isAlpha then none
    else match cs.dropWhile isSchemeChar with
      | ':' :: rest => some ((cs.takeWhile isSchemeChar).map Char.toLower, rest)
      | _ => none

/-! ### Where parts end -/

/-- Ends a path. -/
def endsPath (c : Char) : Bool := c == '?' || c == '#'

def isSlash (kind : SchemeKind) (c : Char) : Bool := c == '/' || (kind.isSpecial && c == '\\')

/-- Ends an authority. -/
def endsAuthority (kind : SchemeKind) (c : Char) : Bool := isSlash kind c || endsPath c

/-- What stands before the last occurrence of a character, and after it. -/
def splitAtLast? (x : Char) : List Char → Option (List Char × List Char)
  | [] => none
  | c :: cs =>
    match splitAtLast? x cs with
    | some (l, r) => some (c :: l, r)
    | none => if c == x then some ([], cs) else none

/-- What stands before the first colon outside brackets, and the rest from it on. -/
def splitHost (inside : Bool) : List Char → List Char × List Char
  | [] => ([], [])
  | c :: cs =>
    if c == ':' && !inside then ([], c :: cs)
    else
      let inside := if c == '[' then true else if c == ']' then false else inside
      let (l, r) := splitHost inside cs
      (c :: l, r)

/-! ### Credentials -/

/-- The name up to the first colon and the password after it. -/
def credentials (cs : List Char) : List Char × List Char :=
  (PercentEncoding.encode escapedInCredentials (cs.takeWhile (· != ':')),
    PercentEncoding.encode escapedInCredentials ((cs.dropWhile (· != ':')).drop 1))

/-! ### Hosts -/

/-- Characters that no host contains, whatever the scheme. -/
def isForbiddenInHost (c : Char) : Bool :=
  c.toNat == 0 || "\t\n\r #/:<>?@[\\]^|".toList.contains c

/-- The address in brackets, if a bracket begins the host. -/
def bracketed? (cs : List Char) : Option (Except UrlError Host) :=
  match cs with
  | '[' :: rest =>
    some <|
      if rest.getLast? = some ']' then
        match Ipv6.parse? rest.dropLast with
        | some a => .ok (.ipv6 a)
        | none => .error .invalidIpv6
      else .error .invalidIpv6
  | _ => none

/-- The host of a special URL. -/
def specialHost (cs : List Char) : Except UrlError Host :=
  match bracketed? cs with
  | some r => r
  | none =>
    match Domain.toAscii? (PercentEncoding.decode (Bytes.ofString (String.ofList cs))) with
    | none => .error .invalidDomain
    | some [] => .error .emptyHost
    | some name =>
      if Ipv4.endsInNumber name then
        match Ipv4.parse? name with
        | some a => .ok (.ipv4 a)
        | none => .error .invalidIpv4
      else .ok (.domain name)

/-- The host of any other URL, which may be empty. -/
def plainHost (cs : List Char) : Except UrlError (Option Host) :=
  match bracketed? cs with
  | some r => r.map some
  | none =>
    if cs.any isForbiddenInHost then .error .invalidHostCharacter
    else if cs.isEmpty then .ok none
    else .ok (some (.domain (PercentEncoding.encode isControl cs)))

/-! ### Ports -/

/-- Reads the digits of a port, after those that make up `n`, to the end of the authority.  A
backslash ends it even where it is no slash. -/
def readPort (n : Nat) : List Char → Except UrlError (Nat × List Char)
  | [] => .ok (n, [])
  | c :: cs =>
    if '0' ≤ c ∧ c ≤ '9' then
      let n := n * 10 + (c.toNat - '0'.toNat)
      if n ≤ 65535 then readPort n cs else .error .invalidPort
    else if c == '/' || c == '\\' || endsPath c then .ok (n, c :: cs)
    else .error .invalidPort

/-- The port after the host, if it has to be named, and the rest. -/
def port (scheme : List Char) (cs : List Char) : Except UrlError (Option UInt16 × List Char) :=
  match cs with
  | ':' :: ds => do
    let (n, rest) ← readPort 0 ds
    let p := UInt16.ofNat n
    return (if rest.length = ds.length ∨ defaultPort? scheme = some p then none else some p, rest)
  | cs => .ok (none, cs)

/-! ### Authorities -/

/-- Reads credentials, host and port, and yields what comes after them. -/
def parseAuthority (scheme : List Char) (cs : List Char) :
    Except UrlError (Authority × List Char) := do
  let kind := schemeKind scheme
  let before := cs.takeWhile fun c => !endsAuthority kind c
  let after := cs.dropWhile fun c => !endsAuthority kind c
  let (user, rest, signed) := match splitAtLast? '@' before with
    | none => ([], before, false)
    | some (u, r) => (u, r, u.isEmpty)
  if signed && rest.isEmpty && !after.isEmpty then throw .emptyHost
  let (username, password) := credentials user
  let (hostText, fromPort) := splitHost false rest
  let host ← match kind with
    | .other => plainHost hostText
    | _ => if hostText.isEmpty then throw .emptyHost else (specialHost hostText).map some
  if host.isNone && fromPort.head? = some ':' then throw .emptyHost
  let (p, rest) ← port scheme (fromPort ++ after)
  if host.isNone && !(username.isEmpty && password.isEmpty) then throw .emptyHost
  return ({ username, password, host, port := p }, rest)

/-! ### Paths -/

/-- A letter with a colon or a bar after it. -/
def isDriveLetter : List Char → Bool
  | [c, d] => c.isAlpha && (d == ':' || d == '|')
  | _ => false

/-- A drive letter, up to a backslash. -/
def startsWithDriveLetter : List Char → Bool
  | [c, d] => isDriveLetter [c, d]
  | c :: d :: '\\' :: _ => isDriveLetter [c, d]
  | _ => false

/-- Either spelling of a dot. -/
def undot : List Char → List Char
  | '%' :: '2' :: 'e' :: cs => '.' :: undot cs
  | '%' :: '2' :: 'E' :: cs => '.' :: undot cs
  | c :: cs => c :: undot cs
  | [] => []

/-- Adds a segment to those so far, the latest first.  Two dots take back the segment before,
which a drive letter does not allow; after dots that end a path an empty segment follows. -/
def addSegment (kind : SchemeKind) (done : List (List Char)) (segment : List Char) (last : Bool) :
    List (List Char) :=
  let finish (done : List (List Char)) := if last then [] :: done else done
  if undot segment = ['.', '.'] then
    match done with
    | [] => finish []
    | s :: ss => finish (if startsWithDriveLetter s then s :: ss else ss)
  else if undot segment = ['.'] then finish done
  else if kind = .file ∧ isDriveLetter segment then (segment.take 1 ++ [':']) :: done
  else segment :: done

/-- Adds segments in order. -/
def addSegments (kind : SchemeKind) (done : List (List Char)) :
    List (List Char) → List (List Char)
  | [] => done
  | [s] => addSegment kind done s true
  | s :: ss => addSegments kind (addSegment kind done s false) ss

/-- The pieces of a text between slashes. -/
def splitSlashes (kind : SchemeKind) (cs : List Char) : List (List Char) :=
  (cs.map fun c => if isSlash kind c then '/' else c).splitOn '/'

/-- Drops empty segments at the front, but not the last segment. -/
def dropEmpty : List (List Char) → List (List Char)
  | [] :: s :: ss => dropEmpty (s :: ss)
  | ss => ss

/-- The segments of a path which begins after its first slash. -/
def pathSegments (kind : SchemeKind) (cs : List Char) : List (List Char) :=
  let pieces := (splitSlashes kind cs).map (PercentEncoding.encode escapedInPath)
  let ss := (addSegments kind [] pieces).reverse
  if kind = .file then dropEmpty ss else ss

/-- The text before the query, and the rest. -/
def splitPath (cs : List Char) : List Char × List Char :=
  (cs.takeWhile fun c => !endsPath c, cs.dropWhile fun c => !endsPath c)

/-- Whether a path names a drive, and then no host counts. -/
def namesDrive (cs : List Char) : Bool :=
  (splitSlashes .file cs).any fun s => isDriveLetter (PercentEncoding.encode escapedInPath s)

/-! ### Query and fragment -/

/-- Puts the query and the fragment into a URL. -/
def withRest (u : Url) (rest : List Char) : Url :=
  let special := (schemeKind u.scheme).isSpecial
  let query? := match rest with
    | '?' :: cs => some (cs.takeWhile (· != '#'))
    | _ => none
  let fragment? := match rest.dropWhile (· != '#') with
    | [] => none
    | _ :: cs => some cs
  { u with
    query := query?.map (PercentEncoding.encode (escapedInQuery special))
    fragment := fragment?.map (PercentEncoding.encode escapedInFragment) }

/-! ### Whole URLs -/

/-- A URL with an authority, from its first character on. -/
def parseHierarchy (scheme : List Char) (cs : List Char) : Except UrlError Url := do
  let kind := schemeKind scheme
  let (a, afterAuthority) ← parseAuthority scheme cs
  let (p, rest) := splitPath afterAuthority
  let path := match p with
    | [] => if kind.isSpecial then [[]] else []
    | c :: cs => pathSegments kind (if isSlash kind c then cs else c :: cs)
  return withRest { scheme, authority := some a, path := .segments path } rest

/-- A URL for a file, after the colon of its scheme. -/
def parseFile (scheme : List Char) (cs : List Char) : Except UrlError Url := do
  let finish (host : Option Host) (cs : List Char) : Url :=
    let (p, rest) := splitPath cs
    let p := match p with
      | [] => []
      | c :: ds => if isSlash .file c then ds else c :: ds
    let host := if namesDrive p then none else host
    withRest
      { scheme, authority := some { host := host }, path := .segments (pathSegments .file p) } rest
  match cs with
  | c :: d :: ds =>
    if isSlash .file c && isSlash .file d then
      let h := ds.takeWhile fun c => !endsAuthority .file c
      if h.isEmpty || isDriveLetter h then return finish none ds
      else
        let host ← specialHost h
        let host := match host with
          | .domain name => if name == "localhost".toList then none else some host
          | _ => some host
        return finish host (ds.drop h.length)
    else return finish none (c :: d :: ds)
  | cs => return finish none cs

/-- A URL whose scheme gets no help, after its colon. -/
def parsePlain (scheme : List Char) (cs : List Char) : Except UrlError Url :=
  match cs with
  | '/' :: '/' :: cs => parseHierarchy scheme cs
  | '/' :: cs =>
    let (p, rest) := splitPath cs
    .ok (withRest
      { scheme, authority := none, path := .segments (pathSegments .other p) } rest)
  | cs =>
    let (p, rest) := splitPath cs
    .ok (withRest
      { scheme, authority := none, path := .plain (PercentEncoding.encode isControl p) } rest)

/-- Around a URL these do not count. -/
def isMargin (c : Char) : Bool := c.toNat ≤ 0x20

/-- Anywhere in a URL these do not count. -/
def isIgnored (c : Char) : Bool := c == '\t' || c == '\n' || c == '\r'

def clean (cs : List Char) : List Char :=
  (((cs.dropWhile isMargin).reverse.dropWhile isMargin).reverse).filter fun c => !isIgnored c

/-- The URL that a text stands for. -/
def parse (s : String) : Except UrlError Url :=
  match splitScheme? (clean s.toList) with
  | none => .error .relative
  | some (scheme, rest) =>
    match schemeKind scheme with
    | .web => parseHierarchy scheme (rest.dropWhile (isSlash .web))
    | .file => parseFile scheme rest
    | .other => parsePlain scheme rest

end Url

end ProposerBook
