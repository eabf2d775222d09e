/-
The binary form of screening lists.

    lists := count { nameLength name setLength set }*count
    set   := address*

Every length is a word of eight bytes, the low byte first.  A set is written as its
members one after the other.

Writing has an order of its own choosing: `encodeInOrder` takes the lists and their
members in whatever order they are given, and `encode` is the one that ascends.
Reading takes exactly what the lengths announce, ignores what follows the last list,
and ignores the bytes at the end of a set that do not make up an address.  Of two
lists with one name the later one counts.  Nothing is yielded unless every announced
list was there.
-/
import ProposerBook.Screening.NamedLists
import ProposerBook.Bytes.Word

namespace ProposerBook

namespace Snapshot

/-! ### What can be missing -/

/-- A part of a snapshot; the number is the place of the list that the part belongs to. -/
inductive Field
  | count
  | nameLength (index : Nat)
  | name (index : Nat)
  | setLength (index : Nat)
  | set (index : Nat)
  deriving DecidableEq, Repr

def Field.label : Field → String
  | .count => "registry entry count"
  | .nameLength i => s!"name length of entry {i}"
  | .name i => s!"name of entry {i}"
  | .setLength i => s!"address set length of entry {i}"
  | .set i => s!"address set of entry {i}"

/-- Why bytes are no snapshot. -/
inductive DecodeError
  | truncated (field : Field) (needed remaining : Nat)
  | invalidName (index : Nat)
  deriving DecidableEq, Repr

namespace DecodeError

/-- The part at which reading stopped. -/
def field : DecodeError → Field
  | truncated f _ _ => f
  | invalidName i => .name i

def message : DecodeError → String
  | truncated f needed remaining =>
    s!"buffer too short for {f.label}: need {needed} bytes, {remaining} remaining"
  | invalidName i => s!"name of entry {i} is not valid UTF-8"

end DecodeError

/-! ### Reading -/

/-- Splits off the `n` bytes of a part. -/
def take (field : Field) (n : Nat) (b : Bytes) : Except DecodeError (Bytes × Bytes) :=
  if n ≤ b.length then .ok (b.take n, b.drop n) else .error (.truncated field n b.length)

/-- Splits off a length. -/
def takeLength (field : Field) (b : Bytes) : Except DecodeError (Nat × Bytes) := do
  let (w, rest) ← take field Word.size b
  return (Word.decode w, rest)

/-- The whole addresses at the front of `b`, at most `n` of them. -/
def addresses : Nat → Bytes → List Address
  | 0, _ => []
  | n + 1, b =>
    match Address.ofBytes? (b.take Address.size) with
    | some a => a :: addresses n (b.drop Address.size)
    | none => []

/-- The set written in `b`; bytes at the end that make up no address are ignored. -/
def decodeSet (b : Bytes) : AddressSet :=
  AddressSet.ofList (addresses (b.length / Address.size) b)

/-- Splits off one list, the one at place `i`. -/
def takeEntry (i : Nat) (b : Bytes) : Except DecodeError ((String × AddressSet) × Bytes) := do
  let (nameLength, b) ← takeLength (.nameLength i) b
  let (name, b) ← take (.name i) nameLength b
  match name.toString? with
  | none => .error (.invalidName i)
  | some name =>
    let (setLength, b) ← takeLength (.setLength i) b
    let (set, b) ← take (.set i) setLength b
    return ((name, decodeSet set), b)

/-- Reads `n` lists, of which the first is at place `i`. -/
def takeEntries (i : Nat) : Nat → Bytes → Except DecodeError (List (String × AddressSet) × Bytes)
  | 0, b => .ok ([], b)
  | n + 1, b => do
    let (e, b) ← takeEntry i b
    let (es, b) ← takeEntries (i + 1) n b
    return (e :: es, b)

/-- The lists written in `b`. -/
def decode (b : Bytes) : Except DecodeError NamedLists := do
  let (count, b) ← takeLength .count b
  let (entries, _) ← takeEntries 0 count b
  return Table.ofList entries

/-! ### Writing -/

def encodeAddresses (as : List Address) : Bytes := as.flatMap Address.bytes

/-- One list, its members in the order given. -/
def encodeEntry (e : String × List Address) : Bytes :=
  let name := Bytes.ofString e.1
  let set := encodeAddresses e.2
  Word.encode name.length ++ name ++ Word.encode set.length ++ set

/-- Lists with their members, all in the order given. -/
def encodeInOrder (es : List (String × List Address)) : Bytes :=
  Word.encode es.length ++ es.flatMap encodeEntry

/-- The lists and their members in ascending order. -/
def encode (lists : NamedLists) : Bytes :=
  encodeInOrder (lists.entries.map fun e => (e.1, e.2.members))

/-- How many bytes a set takes. -/
def setLength (s : AddressSet) : Nat := s.size * Address.size

/-- How many bytes the lists take, in whatever order they are written. -/
def encodedLength (lists : NamedLists) : Nat :=
  lists.entries.foldl
    (fun n e => n + Word.size + (Bytes.ofString e.1).length + Word.size + setLength e.2) Word.size

end Snapshot

end ProposerBook
