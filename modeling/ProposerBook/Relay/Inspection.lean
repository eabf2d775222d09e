/-
Looking at the book over HTTP.

Five routes show the health of the book, the version of the program, what is asked of
the block for a slot, and the records of the lists, and screen addresses.  What answers a
route has the whole book, and yields it as it leaves it.  For a slot it peeks, where it
might as well look up: a lookup would start a sync, and who asks for a slot in the far
future would keep the book from later ones.

What the framework refuses on its own, such as a path that leads nowhere, a wrong method
or a body that is too long or no JSON, has a status and no body that is JSON.
-/
import ProposerBook.Relay.Basic
import ProposerBook.Text.MediaType
import ProposerBook.Url.PercentEncoding

namespace ProposerBook

open Json (Decoder Refusal Tree Value)

namespace Inspection

structure Request where
  method : String := "GET"
  /-- The path, and perhaps a query. -/
  target : String
  contentType : Option String := none
  body : Bytes := []

structure Response where
  status : Nat
  body : Option Value := none

/-! ### Routes -/

inductive Route
  | health
  | version
  /-- With the segment that should be a slot. -/
  | validator (segment : List Char)
  | lists
  | check
  deriving DecidableEq, Repr

/-- The name of what answers a route. -/
def Route.handler : Route → String
  | .health => "get_health"
  | .version => "get_version"
  | .validator _ => "get_validator"
  | .lists => "get_compliance_lists"
  | .check => "post_compliance_check"

/-- Whether a route answers a method. -/
def Route.allows (route : Route) (method : String) : Bool :=
  match route with
  | .check => method == "POST"
  | _ => method == "GET" || method == "HEAD"

/-- The path without the query. -/
def path (target : String) : List Char := target.toList.takeWhile fun c => c != '?' && c != '#'

/-- Where a path leads. -/
def route? (path : List Char) : Option Route :=
  match (path.splitOn '/').map String.ofList with
  | ["", "health"] => some .health
  | ["", "version"] => some .version
  | ["", "validators", s] => if s = "" then none else some (.validator s.toList)
  | ["", "compliance", "lists"] => some .lists
  | ["", "compliance", "check"] => some .check
  | _ => none

/-! ### What is shown -/

/-- The name and version of the program. -/
def programName : String := "validator-relay"

def programVersion : String := "0.1.0"

def healthValue (r : Relay) : Value :=
  .object [
    ("endpoint", .string r.settings.endpoint.toText),
    ("lastSyncedSlot", match r.cache.lastSynced with
      | none => .null
      | some s => .nat s.toNat),
    ("status", .string "ok"),
    ("syncing", .bool r.syncing),
    ("validators", .nat r.cache.slots.size)]

def versionValue : Value :=
  .object [("name", .string programName), ("version", .string programVersion)]

/-- Preferences; a list that is not named is left out. -/
def preferencesValue (slot : UInt64) (p : Preferences) : Value :=
  .object ([
    ("slot", .nat slot.toNat),
    ("pubkey", .string p.pubkey),
    ("feeRecipient", .string p.feeRecipient.toText),
    ("gasLimit", .nat p.gasLimit.toNat)] ++
    match p.complianceList with
      | none => []
      | some name => [("complianceList", .string name)])

def recordValue (m : ListRecord) : Value :=
  .object [
    ("name", .string m.name),
    ("record_count", .nat m.count),
    ("checksum", .string m.checksum),
    ("updated_at", .string m.updated.toText)]

/-- An error, after what more there is to say about it. -/
def errorValue (message : String) (more : List (String × Value)) : Value :=
  .object (more ++ [("error", .string message)])

/-! ### A request to screen addresses -/

/-- Addresses to screen, and the list to screen them against. -/
structure Screening where
  list : String
  addresses : List String
  deriving DecidableEq, Repr

structure PartialScreening where
  list : Option String := none
  addresses : Option (List String) := none

def PartialScreening.step (p : PartialScreening) (key : String) (t : Tree) :
    Except (Refusal Empty) PartialScreening :=
  match key with
  | "list" => do
    let x ← Json.once key p.list Json.string t
    return { p with list := x }
  | "addresses" => do
    let x ← Json.once key p.addresses (Json.list Json.string) t
    return { p with addresses := x }
  | _ => do
    Json.ignored t
    return p

def Screening.decoder : Decoder Empty Screening
  | .object es stop => do
    let p ← Json.fields PartialScreening.step {} es
    Json.closing stop
    let list ← Json.required "list" p.list
    let addresses ← Json.required "addresses" p.addresses
    return { list, addresses }
  | .array ts stop => do
    let expected := "struct ComplianceCheckRequest with 2 elements"
    let (list, row) ← Json.Row.next ⟨ts, stop⟩ 0 expected Json.string
    let (addresses, row) ← row.next 1 expected (Json.list Json.string)
    row.finish
    return { list, addresses }
  | t => Json.refuse "struct ComplianceCheckRequest" t

def Screening.parse (b : Bytes) : Except (Refusal Empty) Screening := Json.read decoder b

/-- An address as it may be written in a request: blanks at both ends do not count. -/
def parseAddress (s : String) : Except Address.ParseError Address := Address.parse (Text.trim s)

/-- The addresses that texts stand for, or the first that is none, and why. -/
def parseAddresses : List String → Except (String × Address.ParseError) (List Address)
  | [] => .ok []
  | s :: ss =>
    match parseAddress s with
    | .error e => .error (s, e)
    | .ok a => (parseAddresses ss).map (a :: ·)

/-! ### Answers -/

/-- What comes of a request: the answer, and what screening found. -/
structure Answer where
  response : Response
  findings : List Registry.Finding := []
  /-- What has been put on record meanwhile. -/
  events : List LogEvent := []

def Answer.ofStatus (status : Nat) : Answer := { response := { status } }

def Answer.ofValue (v : Value) : Answer := { response := { status := 200, body := some v } }

/-- How a finding is put on record. -/
def findingEvent : Registry.Finding → LogEvent
  | .unknownList name =>
    ⟨.warn, .screening, "Compliance list not found, using OFAC list as a backup",
      [("list", .shown name)]⟩
  | .listed list a =>
    ⟨.warn, .audit, "Sanctioned address detected",
      [("list", .shown list), ("address", .shown a.toText)]⟩
  | .blacklisted a reason =>
    ⟨.warn, .audit, "Sanctioned address detected",
      [("list", .text "supplementary"), ("address", .shown a.toText), ("reason", .text reason)]⟩

/-- How an error is shown. -/
def errorResponse (e : RelayError) : Response :=
  match e with
  | .notFound => { status := 404, body := some (errorValue "Validator not found" []) }
  | e =>
    let details := [("details", Value.string e.message)]
    if e.liesWithRelay then
      { status := 502, body := some (errorValue "Relay unavailable" details) }
    else { status := 500, body := some (errorValue "Internal error" details) }

/-- What is asked of the block for a slot, or why nothing is. -/
def preferencesResponse (slot : UInt64) : Except RelayError Preferences → Response
  | .ok p => { status := 200, body := some (preferencesValue slot p) }
  | .error e => errorResponse e

/-- Shows what is asked of the block for a slot. -/
def showValidator (r : Relay) (segment : List Char) : Answer × Relay :=
  match (PercentEncoding.decode (Bytes.ofString (String.ofList segment))).toString? with
  | none => (.ofStatus 400, r)
  | some s =>
    match Decimal.parseWord s with
    | .error _ => (.ofStatus 400, r)
    | .ok slot =>
      let (x, r) := r.peek slot
      ({ response := preferencesResponse slot x }, r)

/-- Screens addresses. -/
def screen (r : Relay) (q : Screening) : Answer × Relay :=
  let r := r.note .debug .inspection "Compliance check"
    [("list", .shown q.list), ("count", .number q.addresses.length)]
  match parseAddresses q.addresses with
  | .error (raw, e) =>
    ({ response := {
        status := 400
        body := some (errorValue "Invalid address" [("address", .string raw)]) } },
      r.note .debug .inspection "Rejecting compliance check"
        [("address", .shown raw), ("error", .shown e.message)])
  | .ok as =>
    let v := r.registry.check q.list as
    ({ response := { status := 200, body := some (.object [("compliant", .bool v.compliant)]) }
       findings := v.findings },
      { r with log := r.log ++ v.findings.map findingEvent })

/-- How many bytes of a body are read. -/
def maxBody : Nat := 2097152

/-- Reads a request to screen addresses, and screens them. -/
def answerCheck (r : Relay) (q : Request) : Answer × Relay :=
  if (q.contentType.bind MediaType.parse?).any MediaType.isJson then
    if maxBody < q.body.length then (.ofStatus 413, r)
    else
      match Screening.parse q.body with
      | .error (.fault _) => (.ofStatus 400, r)
      | .error _ => (.ofStatus 422, r)
      | .ok s => screen r s
  else (.ofStatus 415, r)

/-- What a route answers, and the book as it leaves it. -/
def answerRoute (r : Relay) (q : Request) : Route → Answer × Relay
  | .health => (.ofValue (healthValue r), r)
  | .version => (.ofValue versionValue, r)
  | .validator segment => showValidator r segment
  | .lists => (.ofValue (.array (r.registry.allRecords.map recordValue)), r)
  | .check => answerCheck r q

/-- The answer without its body. -/
def Answer.headOnly (a : Answer) : Answer := { a with response := { a.response with body := none } }

/-- The answer to a request, and the book after it. -/
def answer (r : Relay) (q : Request) : Answer × Relay :=
  match route? (path q.target) with
  | none => (.ofStatus 404, r)
  | some route =>
    if route.allows q.method then
      let (a, r) := answerRoute r q route
      (if q.method = "HEAD" then a.headOnly else a, r)
    else (.ofStatus 405, r)

end Inspection

namespace Relay

/-- Answers a request, and tells what has been put on record with it. -/
def inspect (r : Relay) (q : Inspection.Request) : Inspection.Answer × Relay :=
  let (a, s) := Inspection.answer r q
  ({ a with events := s.log.drop r.log.length }, s)

end Relay

end ProposerBook
