/-
What can go wrong with a relay.

Three causes lie with the relay itself: it cannot be reached, it answers with a status
that is no success, or its answer cannot be read.
-/
import ProposerBook.Json.Decode

namespace ProposerBook

inductive RelayError
  | unreachable (url reason : String)
  | status (url : String) (code : Nat)
  | undecodable (url : String) (reason : Json.Refusal String)
  | malformedAddress (slot : UInt64) (value : String)
  | busy
  | notFound
  | unknownVersion (name : String)
  | payload (reason : String)
  | settings (reason : String)
  deriving DecidableEq, Repr

namespace RelayError

/-- What is told about an error; of a fault in a JSON text nothing is. -/
def message? : RelayError → Option String
  | .unreachable url reason => some s!"relay request to {url} failed: {reason}"
  | .status url code => some s!"non-ok response code {code} from relay {url}"
  | .undecodable url reason =>
    (reason.message? id).map (s!"could not decode relay response from {url}: " ++ ·)
  | .malformedAddress slot value =>
    some s!"ill-formatted fee_recipient {Text.quoted value} for slot {slot}"
  | .busy => some "validator sync is ongoing"
  | .notFound => some "validator not found"
  | .unknownVersion name => some s!"unknown data version {name}"
  | .payload reason => some s!"could not encode block payload: {reason}"
  | .settings reason => some s!"configuration error: {reason}"

/-- The text of an error where one is needed. -/
def message (e : RelayError) : String := e.message?.getD ""

/-- Whether the cause lies with the relay. -/
def liesWithRelay : RelayError → Bool
  | .unreachable .. | .status .. | .undecodable .. => true
  | _ => false

end RelayError

end ProposerBook
