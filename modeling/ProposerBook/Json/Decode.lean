/-
Reading a tree for what it should hold.

A decoder walks the tree in the order of the text and stops at the first thing that
is wrong: a fault of the text, a value of another shape than the one wanted, or a
value of the right shape that the domain refuses.  What is unknown is skipped.
-/
import ProposerBook.Json.Number
import ProposerBook.Json.Scan
import ProposerBook.Decimal.Shortest
import ProposerBook.Text.Quoted

namespace ProposerBook

namespace Json

/-! ### Refusals -/

/-- What stood where something else was wanted. -/
inductive Found
  | null
  | bool (b : Bool)
  | integer (n : Int)
  | float (text : String)
  | string (s : String)
  | sequence
  | map
  deriving DecidableEq, Repr

def Found.label : Found → String
  | .null => "null"
  | .bool b => s!"boolean `{b}`"
  | .integer n => s!"integer `{n}`"
  | .float text => s!"floating point `{text}`"
  | .string s => "string " ++ Text.quoted s
  | .sequence => "sequence"
  | .map => "map"

/-- How a value misses the wanted shape. -/
inductive Mismatch
  | kind (found : Found) (expected : String)
  | length (n : Nat) (expected : String)
  | missing (field : String)
  | duplicate (field : String)
  | noVariant (name : String)
  deriving DecidableEq, Repr

def Mismatch.message : Mismatch → String
  | .kind found expected => s!"invalid type: {found.label}, expected {expected}"
  | .length n expected => s!"invalid length {n}, expected {expected}"
  | .missing field => s!"missing field `{field}`"
  | .duplicate field => s!"duplicate field `{field}`"
  | .noVariant name => s!"data did not match any variant of untagged enum {name}"

/-- Why a text was refused; `ε` is for what the domain has against a value. -/
inductive Refusal (ε : Type)
  | fault (f : Fault)
  | mismatch (m : Mismatch)
  | invalid (e : ε)
  deriving DecidableEq, Repr

/-- What is told about a refusal; of a fault in the text nothing is. -/
def Refusal.message? (message : ε → String) : Refusal ε → Option String
  | .fault _ => none
  | .mismatch m => some m.message
  | .invalid e => some (message e)

/-- A refusal that domain causes of one kind explain, explained by those of another. -/
def Refusal.map (f : ε → ε') : Refusal ε → Refusal ε'
  | .fault g => .fault g
  | .mismatch m => .mismatch m
  | .invalid e => .invalid (f e)

abbrev Decoder (ε α : Type) := Tree → Except (Refusal ε) α

variable {ε α σ : Type}

/-- Fails on the fault, if there is one. -/
def guardFault (f : Option Fault) : Except (Refusal ε) Unit :=
  match f with
  | some f => .error (.fault f)
  | none => .ok ()

def liftFault (x : Except Fault α) : Except (Refusal ε) α := x.mapError .fault

/-- What a value is, for the complaint that it is not what was wanted. -/
def Tree.found : Tree → Except Fault Found
  | .null => .ok .null
  | .bool b => .ok (.bool b)
  | .number l => l.number.map fun
    | .natural n => .integer n
    | .negative n => .integer (-n)
    | .float x => .float (Shortest.text x)
  | .string s => s.map .string
  | .array .. => .ok .sequence
  | .object .. => .ok .map
  | .broken b => .error b.read

/-- Refuses a value of the wrong shape. -/
def refuse (expected : String) (t : Tree) : Except (Refusal ε) α := do
  let found ← liftFault t.found
  .error (.mismatch (.kind found expected))

/-! ### Simple shapes -/

def string : Decoder ε String
  | .string s => liftFault s
  | t => refuse "a string" t

/-- Null for nothing. -/
def optional (d : Decoder ε α) : Decoder ε (Option α)
  | .null => .ok none
  | t => (d t).map some

/-- Nothing, whatever is there. -/
def ignored (t : Tree) : Except (Refusal ε) Unit := guardFault t.skip

/-- The end of an array or object. -/
def closing (stop : Option Break) : Except (Refusal ε) Unit := guardFault (stop.map Break.read)

def items (d : Decoder ε α) : List Tree → Except (Refusal ε) (List α)
  | [] => .ok []
  | t :: ts => do
    let x ← d t
    let xs ← items d ts
    return x :: xs

def list (d : Decoder ε α) : Decoder ε (List α)
  | .array ts stop => do
    let xs ← items d ts
    closing stop
    return xs
  | t => refuse "a sequence" t

/-- Entries with any keys. -/
def pairs (d : Decoder ε α) : List (StringLiteral × Tree) → Except (Refusal ε) (List (String × α))
  | [] => .ok []
  | (k, t) :: es => do
    let k ← liftFault k
    let x ← d t
    let xs ← pairs d es
    return (k, x) :: xs

def map (d : Decoder ε α) : Decoder ε (List (String × α))
  | .object es stop => do
    let xs ← pairs d es
    closing stop
    return xs
  | t => refuse "a map" t

/-! ### Records

A record is written as an object, with the fields in any order and fields unknown to
the record skipped, or as an array of the fields in their order.
-/

/-- Works the entries of an object into a partial record. -/
def fields (step : σ → String → Tree → Except (Refusal ε) σ) (s : σ) :
    List (StringLiteral × Tree) → Except (Refusal ε) σ
  | [] => .ok s
  | (k, t) :: es => do
    let k ← liftFault k
    let s ← step s k t
    fields step s es

/-- A field that may be set once. -/
def once (name : String) (old : Option α) (d : Decoder ε α) (t : Tree) :
    Except (Refusal ε) (Option α) :=
  match old with
  | some _ => .error (.mismatch (.duplicate name))
  | none => (d t).map some

def required (name : String) (x : Option α) : Except (Refusal ε) α :=
  match x with
  | some x => .ok x
  | none => .error (.mismatch (.missing name))

/-- What is left of an array that is read as a record. -/
structure Row where
  items : List Tree
  stop : Option Break

/-- The next item of a row, if there is one. -/
def Row.next? (r : Row) (d : Decoder ε α) : Except (Refusal ε) (Option α × Row) :=
  match r.items with
  | t :: ts => do
    let x ← d t
    return (some x, ⟨ts, r.stop⟩)
  | [] => do
    closing r.stop
    return (none, r)

/-- The item at place `i` of a row which should hold `expected`. -/
def Row.next (r : Row) (i : Nat) (expected : String) (d : Decoder ε α) :
    Except (Refusal ε) (α × Row) := do
  match ← r.next? d with
  | (some x, r) => return (x, r)
  | (none, _) => .error (.mismatch (.length i expected))

/-- The end of a row: nothing may follow. -/
def Row.finish (r : Row) : Except (Refusal ε) Unit :=
  match r.items with
  | _ :: _ => .error (.fault .malformed)
  | [] => closing r.stop

/-! ### Anything -/

mutual

/-- The first fault for a reader who keeps the whole value and who opens at most `room` more
arrays and objects inside each other. -/
def Tree.keep (room : Nat) : Tree → Option Fault
  | .null | .bool _ => none
  | .number l => match l.number with
    | .ok _ => none
    | .error f => some f
  | .string s => match s with
    | .ok _ => none
    | .error f => some f
  | .array ts stop =>
    match room with
    | 0 => some .malformed
    | room + 1 => (keepItems room ts).or (stop.map Break.read)
  | .object es stop =>
    match room with
    | 0 => some .malformed
    | room + 1 => (keepEntries room es).or (stop.map Break.read)
  | .broken b => some b.read

def keepItems (room : Nat) : List Tree → Option Fault
  | [] => none
  | t :: ts => (t.keep room).or (keepItems room ts)

def keepEntries (room : Nat) : List (StringLiteral × Tree) → Option Fault
  | [] => none
  | (k, t) :: es =>
    match k with
    | .error f => some f
    | .ok _ => (t.keep room).or (keepEntries room es)

end

/-- How many arrays and objects may be open inside each other. -/
def maxDepth : Nat := 127

/-! ### Whole texts -/

/-- Reads a whole text. -/
def read (d : Decoder ε α) (b : Bytes) : Except (Refusal ε) α :=
  let doc := scan b
  match d doc.root with
  | .error e => .error e
  | .ok x => if doc.trailing then .error (.fault .malformed) else .ok x

end Json

end ProposerBook
