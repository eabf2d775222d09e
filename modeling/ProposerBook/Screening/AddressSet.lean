/-
Sets of addresses.

The members are kept in ascending order, so two sets with the same members are the
same value and have the same checksum, however they were built.
-/
import ProposerBook.Address
import ProposerBook.Sorted
import ProposerBook.Hash.Sha256

namespace ProposerBook

/-- A set of addresses, its members in ascending order. -/
structure AddressSet where
  members : List Address
  ascending : Sorted.Ascending (fun a : Address => a) members

namespace AddressSet

instance : DecidableEq AddressSet := fun s t =>
  decidable_of_iff (s.members = t.members) <| by cases s; cases t; simp

instance : Repr AddressSet := ⟨fun s n => reprPrec s.members n⟩

def empty : AddressSet := ⟨[], Sorted.ascending_nil _⟩

instance : EmptyCollection AddressSet := ⟨empty⟩

instance : Inhabited AddressSet := ⟨empty⟩

def contains (s : AddressSet) (a : Address) : Bool := s.members.contains a

def size (s : AddressSet) : Nat := s.members.length

def isEmpty (s : AddressSet) : Bool := s.members.isEmpty

def insert (s : AddressSet) (a : Address) : AddressSet :=
  ⟨Sorted.place _ a s.members, Sorted.ascending_place s.ascending _⟩

def insertAll (s : AddressSet) (as : List Address) : AddressSet := as.foldl insert s

def ofList (as : List Address) : AddressSet := insertAll empty as

/-- The members' bytes one after the other, in ascending order. -/
def concat (s : AddressSet) : Bytes := s.members.flatMap Address.bytes

/-- The SHA-256 hash of the members in ascending order, in hexadecimal. -/
def checksum (s : AddressSet) : String := Hex.encode (Sha256.hash s.concat)

end AddressSet

end ProposerBook
