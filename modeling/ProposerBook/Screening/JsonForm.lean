/-
The JSON form of screening lists.

A set of addresses is written as an array of their texts.  It is read from such an
array, from an object whose keys are the addresses (whatever its values are), and
from null, which is the empty set.  Blanks around an address do not count.  Lists by
name are an object from names to sets; of two entries with one name the later one
counts.
-/
import ProposerBook.Json.Decode
import ProposerBook.Json.Value
import ProposerBook.Screening.NamedLists
import ProposerBook.Text.Blank

namespace ProposerBook

namespace JsonForm

open Json (Decoder Refusal Tree Value StringLiteral)

/-- A text that was to be an address and is none. -/
structure BadAddress where
  text : String
  cause : Address.ParseError
  deriving DecidableEq, Repr

def BadAddress.message (e : BadAddress) : String :=
  s!"invalid address {Text.quoted e.text}: {e.cause.message}"

/-- The address of a text, blanks at both ends aside. -/
def address (s : String) : Except (Refusal BadAddress) Address :=
  match Address.parse (Text.trim s) with
  | .ok a => .ok a
  | .error e => .error (.invalid ⟨s, e⟩)

/-- The addresses that are the keys of an object; a key is looked at after its value. -/
def addressKeys : List (StringLiteral × Tree) → Except (Refusal BadAddress) (List Address)
  | [] => .ok []
  | (k, t) :: es => do
    let k ← Json.liftFault k
    Json.ignored t
    let a ← address k
    let as ← addressKeys es
    return a :: as

/-- Reads a set of addresses: an array of them, an object keyed by them, or null for none. -/
def set : Decoder BadAddress AddressSet
  | .null => .ok {}
  | .array ts stop => do
    let as ← Json.items (fun t => do address (← Json.string t)) ts
    Json.closing stop
    return AddressSet.ofList as
  | .object es stop => do
    let as ← addressKeys es
    Json.closing stop
    return AddressSet.ofList as
  | t => Json.refuse "a list of hex addresses or an object keyed by hex address" t

/-- Reads lists by name. -/
def lists : Decoder BadAddress NamedLists := fun t => (Json.map set t).map Table.ofList

/-- Writes addresses in the order given. -/
def ofAddresses (as : List Address) : Value := .array (as.map fun a => .string a.toText)

/-- Writes lists with their members, all in the order given. -/
def ofListsInOrder (es : List (String × List Address)) : Value :=
  .object (es.map fun e => (e.1, ofAddresses e.2))

def ofSet (s : AddressSet) : Value := ofAddresses s.members

def ofLists (g : NamedLists) : Value :=
  ofListsInOrder (g.entries.map fun e => (e.1, e.2.members))

end JsonForm

end ProposerBook
