/-
Talking to a relay over HTTP.

Registrations and lists are fetched, and blocks are posted.  A request fails because
nothing came back in time or the body was cut short, because the status is no success, or
because the body is not what it should be; a body is looked at only if the status is a
success, and that of the answer to a block never.
-/
import ProposerBook.Http.Client
import ProposerBook.Relay.Schedule
import ProposerBook.Screening.JsonForm
import ProposerBook.Url.FormEncoding

namespace ProposerBook

namespace Client

def validatorsPath : String := "/relay/v1/builder/validators"

def listsPath : String := "/blxr/compliance_lists"

def blocksPath : String := "/relay/v1/builder/blocks"

def userAgent : String := "validator-relay/0.1.0"

/-- A URL with more pairs in its query. -/
def withPairs (u : Url) (ps : List (String × String)) : Url :=
  match FormEncoding.encode ps, u.query with
  | [], some [] => { u with query := none }
  | [], _ => u
  | new, some (c :: cs) => { u with query := some (c :: cs ++ '&' :: new) }
  | new, _ => { u with query := some new }

/-- Sends a request and takes a response with success that comes in time.  The text of the URL is
for complaints. -/
def request (timeout : Nat) (s : HttpServer) (urlText : String) (ps : List (String × String))
    (q : HttpRequest) : Except RelayError HttpResponse × HttpServer :=
  match Url.parse urlText with
  | .error _ => (.error (.unreachable urlText "builder error"), s)
  | .ok url =>
    let (r?, s) := s.send timeout (withPairs url ps) q
    match r? with
    | none => (.error (.unreachable urlText ""), s)
    | some r => if r.isSuccess then (.ok r, s) else (.error (.status urlText r.status), s)

/-- What the body of a response says. -/
def decode (urlText : String) (parse : Bytes → Except (Json.Refusal ε) α) (message : ε → String)
    (r : HttpResponse) : Except RelayError α :=
  match r.body with
  | none => .error (.unreachable urlText "")
  | some b => (parse b).mapError fun e => .undecodable urlText (e.map message)

/-- Fetches registrations. -/
def validators (settings : RelaySettings) (s : HttpServer) :
    Except RelayError (List Registration) × HttpServer :=
  let url := settings.locate validatorsPath
  let (r, s) := request settings.timeout.toNat s url [] { target := "", userAgent }
  (r.bind (decode url Registration.parse Decimal.ParseError.message), s)

/-- Fetches the lists with these names. -/
def lists (settings : RelaySettings) (names : List String) (s : HttpServer) :
    Except RelayError NamedLists × HttpServer :=
  let url := settings.locate listsPath
  let ps := names.map ("list", ·)
  let (r, s) := request settings.timeout.toNat s url ps { target := "", userAgent }
  (r.bind (decode url (Json.read JsonForm.lists) JsonForm.BadAddress.message), s)

/-- The request that posts a block. -/
def blockRequest (settings : RelaySettings) (b : BlockBody) : HttpRequest :=
  match b with
  | .json v =>
    { method := "POST", target := "", userAgent, contentType := some "application/json",
      body := v.write }
  | .ssz b =>
    { method := "POST", target := "", userAgent, contentType := some "application/octet-stream",
      contentEncoding := if settings.gzip then some "gzip" else none, body := b }

/-- Where blocks go. -/
def blocksUrl (settings : RelaySettings) (cancellations : Bool) : String :=
  settings.locate blocksPath ++ if cancellations then "?cancellations=true" else ""

/-- Posts a block. -/
def submit (settings : RelaySettings) (b : Submission) (s : HttpServer) :
    Except RelayError Unit × HttpServer :=
  let (r, s) := request settings.timeout.toNat s (blocksUrl settings b.cancellations) []
    (blockRequest settings b.body)
  (r.map fun _ => (), s)

/-- The first `n` attempts to fetch registrations, each with the server after it. -/
def attempts (settings : RelaySettings) :
    Nat → HttpServer → List (Except RelayError (List Registration) × HttpServer)
  | 0, _ => []
  | n + 1, s =>
    let (x, s) := validators settings s
    (x, s) :: attempts settings n s

/-- Fills a new book from a server, and yields the server as it is then. -/
def start (r : Relay) (s : HttpServer) : Relay × HttpServer :=
  let xs := attempts r.settings (Relay.startupRetries + 1) s
  let plan := xs.map fun x => (⟨0, .answer x.1⟩ : Planned (List Registration))
  let r := { r with remote := { r.remote with validatorPlan := plan } }.start
  (r, ((xs[r.remote.validatorCalls - 1]?).map Prod.snd).getD s)

end Client

end ProposerBook
