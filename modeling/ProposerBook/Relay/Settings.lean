/-
Settings of a relay, and where they come from.

Settings are read from environment variables.  A variable that is not set, or whose
value is no text, counts as absent; only the endpoint must be there.
-/
import ProposerBook.Proposer.Clock
import ProposerBook.Relay.Error
import ProposerBook.Text.Blank
import ProposerBook.Text.Decimal
import ProposerBook.Text.Lowercase
import ProposerBook.Url.Parse

namespace ProposerBook

/-! ### Settings -/

/-- For how many milliseconds an answer is awaited where nothing else is said. -/
def RelaySettings.defaultTimeout : UInt64 := 1000

structure RelaySettings where
  endpoint : Url
  /-- Blocks go out in binary form. -/
  ssz : Bool := false
  /-- Blocks in binary form are compressed. -/
  gzip : Bool := false
  /-- Lists that proposers name are fetched. -/
  complianceLists : Bool := false
  /-- For how many milliseconds an answer is awaited. -/
  timeout : UInt64 := RelaySettings.defaultTimeout

/-- The text of the endpoint without slashes at its end, and `path` after it. -/
def RelaySettings.locate (s : RelaySettings) (path : String) : String :=
  String.ofList ((s.endpoint.toChars.reverse.dropWhile (· == '/')).reverse ++ path.toList)

/-! ### The environment -/

/-- The values of variables, which need not be text. -/
abbrev Environment := List (String × Bytes)

namespace Environment

/-- The text of a variable. -/
def text? (env : Environment) (name : String) : Option String :=
  (env.lookup name).bind Bytes.toString?

/-- Whether a variable switches something on. -/
def flag (env : Environment) (name : String) : Bool :=
  match env.text? name with
  | none => false
  | some v => ["true", "1", "yes"].contains (Text.lower (Text.trim v))

/-- The number that a variable holds. -/
def number (name value : String) : Except RelayError UInt64 :=
  match Decimal.parseWord value with
  | .ok n => .ok n
  | .error e => .error (.settings s!"invalid {name}: {e.message}")

/-- Where the relay is. -/
def endpoint (env : Environment) : Except RelayError Url :=
  match env.text? "RELAY_ENDPOINT" with
  | none => .error (.settings "env RELAY_ENDPOINT not set")
  | some v =>
    match Url.parse v with
    | .ok url => .ok url
    | .error e => .error (.settings s!"invalid RELAY_ENDPOINT {Text.quoted v}: {e.message}")

/-- How long an answer is awaited. -/
def timeout (env : Environment) : Except RelayError UInt64 :=
  match env.text? "RELAY_REQUEST_TIMEOUT_MS" with
  | none => .ok RelaySettings.defaultTimeout
  | some v => number "RELAY_REQUEST_TIMEOUT_MS" v

/-- The settings that the environment makes. -/
def relaySettings (env : Environment) : Except RelayError RelaySettings := do
  let endpoint ← env.endpoint
  let timeout ← env.timeout
  return {
    endpoint
    timeout
    ssz := env.flag "RELAY_SSZ_ENABLED"
    gzip := env.flag "RELAY_GZIP_ENABLED"
    complianceLists := env.flag "RELAY_COMPLIANCE_LISTS_ENABLED" }

/-- Whether submitted blocks may be cancelled later. -/
def cancellations (env : Environment) : Bool := env.flag "RELAY_CANCELLATIONS_ENABLED"

/-- How long a slot is where nothing else is said. -/
def defaultSecondsPerSlot : UInt64 := 12

/-- The length of a slot, which is not zero. -/
def secondsPerSlot (env : Environment) : Except RelayError UInt64 :=
  match env.text? "SECONDS_PER_SLOT" with
  | none => .ok defaultSecondsPerSlot
  | some v =>
    match Decimal.parseWord v with
    | .ok n =>
      if n = 0 then .error (.settings s!"invalid SECONDS_PER_SLOT: {Text.quoted v}") else .ok n
    | .error _ => .error (.settings s!"invalid SECONDS_PER_SLOT: {Text.quoted v}")

/-- The clock that the environment makes; there is none without a genesis. -/
def slotClock? (env : Environment) : Except RelayError (Option SlotClock) :=
  match env.text? "GENESIS_TIME" with
  | none => .ok none
  | some v => do
    let genesis ← number "GENESIS_TIME" v
    let seconds ← env.secondsPerSlot
    return some ⟨genesis, seconds⟩

end Environment

end ProposerBook
