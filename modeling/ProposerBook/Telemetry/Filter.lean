/-
Which records are shown.

A filter is a list of directives between commas:

    level                  up to this level, from everywhere
    target                 everything from the parts whose names begin so
    target=level           up to this level, from the parts whose names begin so
    target[span]=level     up to this level, within the spans of this name

A level is one of five words in any case, its number, or off.  Of the directives for
parts, the one with the longest name that fits decides alone, and where nothing fits
nothing is shown; the directives for spans only add to that.  A span whose own level
is not shown leaves no trace in the records of what happens in it.
-/
import ProposerBook.Telemetry.Record
import ProposerBook.Text.Blank
import ProposerBook.Text.Decimal
import ProposerBook.Text.Lowercase

namespace ProposerBook

structure LogDirective where
  target? : Option String := none
  /-- The spans that it is about; without these it is about parts. -/
  span? : Option String := none
  /-- The rank of the most talkative level shown; zero where nothing is. -/
  rank : Nat
  deriving DecidableEq, Repr

abbrev LogFilter := List LogDirective

namespace LogDirective

/-! ### Reading -/

/-- The words for ranks. -/
def rankWords : List (String × Nat) :=
  ("off", 0) :: [LogLevel.error, .warn, .info, .debug, .trace].map fun l => (l.label, l.rank)

/-- The rank that a word or a number means. -/
def rank? (s : String) : Option Nat :=
  match Decimal.parse Word.bound s with
  | .ok n => if n ≤ LogLevel.trace.rank then some n else none
  | .error _ => (rankWords.find? fun w => Text.equalIgnoringAsciiCase w.1 s).map (·.2)

/-- What may stand first in a directive that does not begin with a span. -/
def mayBegin (c : Char) : Bool := c.isAlphanum || ['-', ':', '_'].contains c || 0x80 ≤ c.toNat

/-- The level behind an equals sign; without one everything is shown. -/
def levelAfter (cs : List Char) : Option Nat :=
  if cs.isEmpty then some LogLevel.trace.rank else rank? (String.ofList cs)

/-- A directive that names a span, from behind the opening bracket. -/
def parseSpan (target? : Option String) (cs : List Char) : Option LogDirective :=
  let name := cs.takeWhile fun c => c ≠ ']' ∧ c ≠ '\x7b'
  match cs.drop name.length with
  | [']'] => some { target?, span? := some (String.ofList name), rank := LogLevel.trace.rank }
  | ']' :: '=' :: cs => (levelAfter cs).map fun rank =>
    { target?, span? := some (String.ofList name), rank }
  | _ => none

/-- Everything from the parts whose names begin so. -/
def everythingFrom (target : String) : LogDirective :=
  { target? := some target, rank := LogLevel.trace.rank }

/-- Reads a directive that begins with a level or the name of a part. -/
def parseNamed (cs : List Char) : Option LogDirective :=
  let name := cs.takeWhile fun c => c ≠ '=' ∧ c ≠ '['
  let target := String.ofList name
  match cs.drop name.length with
  | '=' :: cs => (levelAfter cs).map fun rank => { target? := some target, rank }
  | '[' :: cs => parseSpan (some target) cs
  | _ => some (match rank? target with
    | some rank => { rank }
    | none => everythingFrom target)

/-- Blanks around a directive belong to what it names, so that with them it names no level and no
part. -/
def parse (s : String) : Option LogDirective :=
  match Text.trimChars s.toList with
  | [] => none
  | '[' :: cs => parseSpan none cs
  | c :: _ =>
    if !mayBegin c then none
    else if s.toList.head? = some c then parseNamed s.toList
    else if s.contains '=' then none
    else some (everythingFrom s)

/-! ### What a directive is about -/

/-- Whether a part of this name is meant. -/
def covers (d : LogDirective) (target : String) : Bool := d.target?.all (target.startsWith ·)

/-- How closely a directive names its parts. -/
def closeness (d : LogDirective) : Nat :=
  match d.target? with
  | none => 0
  | some t => t.utf8ByteSize + 1

end LogDirective

namespace LogFilter

/-- Only errors are shown. -/
def errorsOnly : LogFilter := [{ rank := LogLevel.error.rank }]

/-- What is shown where nothing else is said. -/
def standard : LogFilter := [{ rank := LogLevel.info.rank }]

/-- Reads a filter; without any directive only errors are shown. -/
def parse (s : String) : Option LogFilter :=
  match (s.splitOn ",").filter (· ≠ "") with
  | [] => some errorsOnly
  | ds => ds.mapM LogDirective.parse

/-- The directive that decides for a part: the closest one, and of two equally close ones the
later. -/
def deciding (f : LogFilter) (target : String) : Option LogDirective :=
  (f.filter fun d => d.span?.isNone && d.covers target).foldl (fun best d =>
    match best with
    | some b => if b.closeness ≤ d.closeness then some d else some b
    | none => some d) none

/-- Whether the directives for parts show what a part says at a level. -/
def allows (f : LogFilter) (source : LogSource) (level : LogLevel) : Bool :=
  (f.deciding source.target).any fun d => level.rank ≤ d.rank

/-- The highest rank that is shown within a span, if some directive names it. -/
def within? (f : LogFilter) (s : LogSpan) : Option Nat :=
  ((f.filter fun d => d.span? == some s.name && d.covers s.source.target).map (·.rank)).max?

/-- The spans that are shown, and the highest rank shown within them, `rank` being the one shown
around them. -/
def through (f : LogFilter) (rank : Nat) : List LogSpan → List LogSpan × Nat
  | [] => ([], rank)
  | s :: ss =>
    match f.within? s with
    | some inner => let (shown, rank) := through f (max rank inner) ss; (s :: shown, rank)
    | none =>
      let (shown, inner) := through f rank ss
      if LogSpan.level.rank ≤ rank ∨ f.allows s.source LogSpan.level then (s :: shown, inner)
      else (shown, inner)

/-- A record as it is shown, if it is. -/
def show? (f : LogFilter) (r : LogRecord) : Option LogRecord :=
  let (spans, rank) := f.through 0 r.spans
  if r.event.level.rank ≤ rank ∨ f.allows r.event.source r.event.level then some { r with spans }
  else none

end LogFilter

end ProposerBook
