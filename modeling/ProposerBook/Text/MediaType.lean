/-
Media types.

A media type has a type, a subtype which may end in a suffix, and parameters.  Case
does not matter, and the suffix is what follows the last plus sign.
-/

namespace ProposerBook

structure MediaType where
  main : List Char
  sub : List Char
  suffix : Option (List Char)
  deriving DecidableEq, Repr

namespace MediaType

def isToken (c : Char) : Bool :=
  c.isAlphanum || "!#$%&*+-.^_`|~\x7b\x7d".toList.contains c || c.toNat == 0x27

/-- What may stand between quotes. -/
def isQuotable (c : Char) : Bool := 0x20 ≤ c.toNat && c.toNat != 0x7f

/-- How far the reading of parameters has come. -/
inductive ParameterState
  | start
  | name
  | equals
  | value
  | quoted
  | closed
  deriving DecidableEq, Repr

namespace ParameterState

/-- Reads one character. -/
def step (s : ParameterState) (c : Char) : Option ParameterState :=
  match s with
  | .start => if c = ' ' then some .start else if isToken c then some .name else none
  | .name => if c = '=' then some .equals else if isToken c then some .name else none
  | .equals => if c = '"' then some .quoted else if isToken c then some .value else none
  | .value => if c = ';' then some .start else if isToken c then some .value else none
  | .quoted => if c = '"' then some .closed else if isQuotable c then some .quoted else none
  | .closed => if c = ';' then some .start else if c = ' ' then some .closed else none

/-- Whether the text may end here. -/
def isFinal : ParameterState → Bool
  | .name | .quoted => false
  | .start | .equals | .value | .closed => true

end ParameterState

/-- Whether a text is a list of parameters. -/
def areParameters (cs : List Char) : Bool :=
  (cs.foldlM ParameterState.step .start).any ParameterState.isFinal

/-- What stands before the last plus sign, unless the text begins with it, and what after it. -/
def splitSuffix (cs : List Char) : List Char × Option (List Char) :=
  let after := (cs.reverse.takeWhile (· != '+')).reverse
  let before := cs.take (cs.length - after.length - 1)
  if before.isEmpty then (cs, none) else (before, some after)

/-- The media type that a text names. -/
def parse? (s : String) : Option MediaType :=
  let cs := s.toList
  let main := cs.takeWhile isToken
  match cs.dropWhile isToken with
  | '/' :: rest =>
    let sub := rest.takeWhile isToken
    let (sub', suffix) := splitSuffix sub
    let mt : MediaType :=
      ⟨main.map Char.toLower, sub'.map Char.toLower, suffix.map (·.map Char.toLower)⟩
    match main, rest.dropWhile isToken with
    | [], _ => none
    | _, [] => some mt
    | _, ';' :: ps => if !sub.isEmpty && areParameters ps then some mt else none
    | _, _ => none
  | _ => none

/-- Whether a media type is one for JSON. -/
def isJson (m : MediaType) : Bool :=
  m.main == "application".toList && (m.sub == "json".toList || m.suffix == some "json".toList)

end MediaType

end ProposerBook
