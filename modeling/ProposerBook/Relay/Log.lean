/-
What the program says about itself while it runs.

An event has a level, the part of the program it comes from, a message, and fields.
The values of fields differ in how they are shown in a line of text: a text goes
between quotes, and a number or something that has a form of its own stands bare.
-/
import ProposerBook.Text.Quoted

namespace ProposerBook

inductive LogLevel
  | error
  | warn
  | info
  | debug
  | trace
  deriving DecidableEq, Repr

def LogLevel.label : LogLevel → String
  | .error => "ERROR"
  | .warn => "WARN"
  | .info => "INFO"
  | .debug => "DEBUG"
  | .trace => "TRACE"

/-- From the least to the most talkative. -/
def LogLevel.rank : LogLevel → Nat
  | .error => 1
  | .warn => 2
  | .info => 3
  | .debug => 4
  | .trace => 5

/-- The parts of the program that speak. -/
inductive LogSource
  /-- The cache and its exchange with the relay. -/
  | cache
  | overrides
  | inspection
  | screening
  | audit
  | telemetry
  /-- The arrival of a request, and the departure of its answer. -/
  | request
  | response
  | ending
  deriving DecidableEq, Repr

/-- The name under which a part speaks. -/
def LogSource.target : LogSource → String
  | .cache => "validator_relay::remote_relay"
  | .overrides => "validator_relay::local_relay"
  | .inspection => "validator_relay::handlers"
  | .screening => "relay_compliance::registry"
  | .audit => "compliance_audit"
  | .telemetry => "validator_relay::telemetry"
  | .request => "tower_http::trace::on_request"
  | .response => "tower_http::trace::on_response"
  | .ending => "tower_http::trace::on_eos"

inductive LogValue
  | text (s : String)
  | shown (s : String)
  | number (n : Nat)
  deriving DecidableEq, Repr

/-- A value as it is. -/
def LogValue.plain : LogValue → String
  | .text s => s
  | .shown s => s
  | .number n => toString n

/-- A value in a line of text. -/
def LogValue.inLine : LogValue → String
  | .text s => Text.quoted s
  | .shown s => s
  | .number n => toString n

structure LogEvent where
  level : LogLevel
  source : LogSource
  message : String
  fields : List (String × LogValue)
  deriving DecidableEq, Repr

end ProposerBook
