/-
What a text holds when it is read as JSON.

A reader of a text knows what shape it wants, and it complains about the first
thing that goes wrong on the way from left to right: a value of another shape, or
a place where the text stops being JSON.  So that one reading serves every wanted
shape, a text is first turned into a `Tree`, which goes as far as the text goes and
ends in a `Break` where the text breaks off; the complaint is left to whoever walks
the tree.

Some things are faults only for a reader who wants to know what is there, and pass
when a value is skipped: a text that is not Unicode, and a number out of range.
Those stand in the tree as they are.
-/
import ProposerBook.Bytes.Basic

namespace ProposerBook

namespace Json

/-- How a text fails to be JSON: it ends too early, or something stands where it must not. -/
inductive Fault
  | cutShort
  | malformed
  deriving DecidableEq, Repr

/-- A place where the text stops being JSON: the fault for a reader who reads the value there,
and for one who skips it. -/
structure Break where
  read : Fault
  skip : Fault
  deriving DecidableEq, Repr

/-- The break that is the same for both. -/
def Break.of (f : Fault) : Break := ⟨f, f⟩

/-- A number as it is spelled: digits before the point, after it, and the exponent. -/
structure Literal where
  negative : Bool
  whole : List Nat
  fraction : List Nat := []
  exponent? : Option (Bool × List Nat) := none
  deriving DecidableEq, Repr

/-- A text between quotes: what it says, or why it says nothing. -/
abbrev StringLiteral := Except Fault String

inductive Tree
  | null
  | bool (b : Bool)
  | number (n : Literal)
  | string (s : StringLiteral)
  | array (items : List Tree) (stop : Option Break)
  | object (entries : List (StringLiteral × Tree)) (stop : Option Break)
  | broken (b : Break)

instance : Inhabited Tree := ⟨.null⟩

/-- A whole text: its value, and whether anything but white space follows. -/
structure Document where
  root : Tree
  trailing : Bool

mutual

/-- The first fault for a reader who skips the value. -/
def Tree.skip : Tree → Option Fault
  | .array items stop => (skipItems items).or (stop.map Break.skip)
  | .object entries stop => (skipEntries entries).or (stop.map Break.skip)
  | .broken b => some b.skip
  | .null | .bool _ | .number _ | .string _ => none

def skipItems : List Tree → Option Fault
  | [] => none
  | t :: ts => t.skip.or (skipItems ts)

def skipEntries : List (StringLiteral × Tree) → Option Fault
  | [] => none
  | (_, t) :: es => t.skip.or (skipEntries es)

end

end Json

end ProposerBook
