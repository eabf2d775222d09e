/-
Setting up what the program says, and tracing requests.

The program says who it is when it begins to speak.  That is done once: whoever tries
again is told that it has been done, and only the name under which requests are traced
changes.  A request is traced as a span around everything that is said while it is
answered, with a remark at its arrival, one at the departure of its answer, and one at
the end of the answer's body.
-/
import ProposerBook.Relay.Inspection
import ProposerBook.Telemetry.Filter

namespace ProposerBook

/-- Under which name and version the program speaks. -/
structure Telemetry where
  name : String := Inspection.programName
  version : String := "unknown"
  deriving DecidableEq, Repr

namespace Telemetry

/-! ### Registration -/

/-- What is said on being the first. -/
def initialized (t : Telemetry) : LogRecord :=
  { event := ⟨.info, .telemetry, "Telemetry initialized",
      [("service", .text t.name), ("version", .text t.version)]⟩ }

/-- What is said on not being the first. -/
def alreadyInstalled : LogRecord :=
  { event := ⟨.debug, .telemetry, "Tracing subscriber already installed",
      [("error", .shown "a global default trace dispatcher has already been set")]⟩ }

/-! ### Requests -/

/-- A target as it is shown: no fragment, and a path that is not empty. -/
def shownTarget (target : String) : String :=
  let cs := target.toList.takeWhile (· != '#')
  match cs with
  | [] | '?' :: _ => String.ofList ('/' :: cs)
  | _ => String.ofList cs

/-- The span around a request. -/
def requestSpan (service : String) (q : Inspection.Request) : LogSpan :=
  { name := "http_request"
    source := .telemetry
    fields := [("service", .text service), ("method", .shown q.method),
      ("uri", .shown (shownTarget q.target))] }

/-- The span around the work of the handler that a request leads to. -/
def handlerSpans (q : Inspection.Request) : List LogSpan :=
  match Inspection.route? (Inspection.path q.target) with
  | none => []
  | some route => [{ name := route.handler, source := .inspection }]

def arrived : LogEvent := ⟨.debug, .request, "started processing request", []⟩

def departed (status : Nat) : LogEvent :=
  ⟨.info, .response, "finished processing request", [("status", .number status)]⟩

def ended : LogEvent := ⟨.debug, .ending, "end of stream", [("stream_duration", .shown "0 ms")]⟩

/-- Everything that is said around a request and its answer. -/
def trace (service : String) (q : Inspection.Request) (a : Inspection.Answer) : List LogRecord :=
  let span := requestSpan service q
  [⟨arrived, [span]⟩]
    ++ a.events.map (fun e => ⟨e, span :: handlerSpans q⟩)
    ++ [⟨departed a.response.status, [span]⟩, ⟨ended, [span]⟩]

/-- Answers requests one after the other, and yields the answers with what is said around them. -/
def serve (service : String) (r : Relay) :
    List Inspection.Request → List (Inspection.Answer × List LogRecord)
  | [] => []
  | q :: qs => let (a, r) := r.inspect q; (a, trace service q a) :: serve service r qs

end Telemetry

/-! ### Where records go -/

/-- A record written down. -/
inductive LogLine
  | text (s : String)
  | object (v : Json.Value)

/-- Which records are written down, and in which form. -/
structure LogOutput where
  filter : LogFilter
  asJson : Bool

namespace LogOutput

/-- What the environment asks for.  A filter that cannot be read counts as none at all. -/
def ofEnvironment (env : Environment) : LogOutput :=
  { filter := ((env.text? "RUST_LOG").bind LogFilter.parse).getD .standard
    asJson := (env.text? "LOG_FORMAT").any (Text.equalIgnoringAsciiCase "json") }

/-- The lines that records make. -/
def lines (o : LogOutput) (rs : List LogRecord) : List LogLine :=
  (rs.filterMap o.filter.show?).map fun r => if o.asJson then .object r.json else .text r.line

end LogOutput

end ProposerBook
