/-
How an event is written down.

An event may happen within spans: what the program was doing at that time, the
outermost thing first.  A record is an event with its spans, and has two written
forms, a line of text and a JSON object.
-/
import ProposerBook.Json.Value
import ProposerBook.Relay.Log

namespace ProposerBook

/-- Something that the program does for a while. -/
structure LogSpan where
  name : String
  source : LogSource
  fields : List (String × LogValue) := []
  deriving DecidableEq, Repr

/-- All spans have this level. -/
def LogSpan.level : LogLevel := .info

/-- An event, and the spans it happened in, the outermost one first. -/
structure LogRecord where
  event : LogEvent
  spans : List LogSpan := []
  deriving DecidableEq, Repr

/-! ### As a line of text -/

/-- Fields in a line of text. -/
def fieldsInLine (fs : List (String × LogValue)) : String :=
  " ".intercalate (fs.map fun (name, v) => name ++ "=" ++ v.inLine)

def LogSpan.inLine (s : LogSpan) : String :=
  if s.fields.isEmpty then s.name ++ ":"
  else s.name ++ "\x7b" ++ fieldsInLine s.fields ++ "\x7d:"

def LogRecord.line (r : LogRecord) : String :=
  let spans := if r.spans.isEmpty then [] else [String.join (r.spans.map LogSpan.inLine)]
  let fields := if r.event.fields.isEmpty then [] else [fieldsInLine r.event.fields]
  " ".intercalate
    ([r.event.level.label] ++ spans ++ [r.event.source.target ++ ":", r.event.message] ++ fields)

/-! ### As a JSON object -/

def LogValue.json : LogValue → Json.Value
  | .text s => .string s
  | .shown s => .string s
  | .number n => .nat n

def LogSpan.json (s : LogSpan) : Json.Value :=
  .object (s.fields.map (fun (name, v) => (name, v.json)) ++ [("name", .string s.name)])

/-- A record as an object.  The innermost span stands there also by itself. -/
def LogRecord.json (r : LogRecord) : Json.Value :=
  .object ([
    ("level", .string r.event.level.label),
    ("fields", .object
      (("message", .string r.event.message) :: r.event.fields.map fun (name, v) => (name, v.json))),
    ("target", .string r.event.source.target)] ++
    match r.spans.getLast? with
    | none => []
    | some s => [("span", s.json), ("spans", .array (r.spans.map LogSpan.json))])

end ProposerBook
