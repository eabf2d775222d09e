/-
Sending requests.

Each request goes over a connection of its own.  What comes back is a response, or
nothing that could be taken for one: the server closes the connection, stays silent
until the time is over, answers too late, or talks nonsense.  A response that sends the client
elsewhere is followed, ten times at most, and all that together has to be over in time.  Only URLs
of the web are asked for anything: where an endpoint or a response leads elsewhere, nothing comes
back.
-/
import ProposerBook.Http.Response
import ProposerBook.Url.Parse

namespace ProposerBook

/-- A request as the server sees it, once the encoding of its body is undone. -/
structure HttpRequest where
  method : String := "GET"
  /-- Path and query. -/
  target : String
  contentType : Option String := none
  contentEncoding : Option String := none
  userAgent : String
  body : Bytes := []
  deriving DecidableEq, Repr

/-- What a server does about a request. -/
inductive Reaction
  | silence
  /-- It sends these bytes, the last of them after so many milliseconds.  Of a body that does not
  come to an end in time the part that is missing is left out. -/
  | response (b : Bytes) (ms : Nat := 0)

/-- A server: what it will do, request by request, and what it was asked.  When nothing is left to
do it closes connections at once. -/
structure HttpServer where
  reactions : List Reaction
  requests : List HttpRequest := []

/-- Whether a URL has one of the schemes that a client knows. -/
def Url.isWeb (u : Url) : Bool := u.scheme == "http".toList || u.scheme == "https".toList

/-- What a request asks a server for. -/
def Url.requestTarget (u : Url) : String :=
  String.ofList (u.pathChars ++ u.queryChars)

/-- The URL that a reference stands for where `u` is looked at. -/
def Url.join? (u : Url) (reference : String) : Option Url :=
  let start := u.scheme ++ ':' :: u.authorityChars
  let whole : List Char := match Url.clean reference.toList with
    | '/' :: '/' :: cs => u.scheme ++ ':' :: '/' :: '/' :: cs
    | '/' :: cs => start ++ '/' :: cs
    | '?' :: cs => start ++ u.pathChars ++ '?' :: cs
    | '#' :: cs => start ++ u.pathChars ++ u.queryChars ++ '#' :: cs
    | [] => start ++ u.pathChars ++ u.queryChars
    | cs => start ++ (u.pathChars.reverse.dropWhile (· != '/')).reverse ++ cs
  match Url.parse reference with
  | .ok v => some v
  | .error .relative => (Url.parse (String.ofList whole)).toOption
  | .error _ => none

namespace HttpServer

/-- One request and its response, for which there are `left` milliseconds, and what is left of these
after it. -/
def exchange (s : HttpServer) (left : Nat) (q : HttpRequest) :
    Option (HttpResponse × Nat) × HttpServer :=
  match s.reactions with
  | [] => (none, s)
  | .silence :: rs => (none, { reactions := rs, requests := s.requests ++ [q] })
  | .response b ms :: rs =>
    (if ms < left then (HttpResponse.read b).map (·, left - ms) else none,
      { reactions := rs, requests := s.requests ++ [q] })

/-- The request to make elsewhere: a status may turn it into one that fetches. -/
def redirected (q : HttpRequest) (status : Nat) : Option HttpRequest :=
  match status with
  | 301 | 302 | 303 =>
    some { target := q.target, userAgent := q.userAgent,
           method := if q.method = "HEAD" then "HEAD" else "GET" }
  | 307 | 308 => some q
  | _ => none

/-- Where a response to `q` sends the client, and with which request. -/
def next? (url : Url) (q : HttpRequest) (r : HttpResponse) : Option (Url × HttpRequest) := do
  let q ← redirected q r.status
  let reference ← r.location?
  let next ← url.join? (String.ofList reference)
  return (next, q)

/-- Sends a request to `url` and follows where the responses lead, `n` times at most and for `left`
milliseconds. -/
def follow : Nat → HttpServer → Nat → Url → HttpRequest → Option HttpResponse × HttpServer
  | 0, s, left, url, q =>
    let (x?, s) := s.exchange left { q with target := url.requestTarget }
    ((x?.map Prod.fst).filter fun r => (next? url q r).isNone, s)
  | n + 1, s, left, url, q =>
    let (x?, s) := s.exchange left { q with target := url.requestTarget }
    match x? with
    | none => (none, s)
    | some (r, left) =>
      match next? url q r with
      | none => (some r, s)
      | some (next, q) => if next.isWeb then follow n s left next q else (none, s)

/-- How often a client goes elsewhere. -/
def maxRedirects : Nat := 10

/-- Sends a request, which has to be answered within so many milliseconds. -/
def send (s : HttpServer) (timeout : Nat) (url : Url) (q : HttpRequest) :
    Option HttpResponse × HttpServer :=
  if url.isWeb then follow maxRedirects s timeout url q else (none, s)

end HttpServer

end ProposerBook
