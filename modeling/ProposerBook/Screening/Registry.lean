/-
The registry of screening lists.

It holds lists by name, a record of what is known about each of them, and the
operator's blacklist.  Lists come in only by `upsert`, one at a time and whole, so a
list fetched for one proposer never evicts a list that another still relies on, and
each list has its record from the moment it is there.  The record also tells when that was,
by a clock about which nothing is assumed.

Screening names a list.  The empty name, and any name that no list has, stand for the
baseline; the blacklist is consulted whatever the name.
-/
import ProposerBook.Screening.Baseline
import ProposerBook.Screening.Blacklist
import ProposerBook.Screening.Snapshot
import ProposerBook.Timestamp

namespace ProposerBook

/-- What is known about a list from the time it was registered. -/
structure ListRecord where
  name : String
  count : Nat
  checksum : String
  updated : Timestamp
  deriving DecidableEq, Repr

def ListRecord.of (name : String) (list : AddressSet) (updated : Timestamp) : ListRecord :=
  ⟨name, list.size, list.checksum, updated⟩

/-- When lists come in, by their names: those of one update come one after the other. -/
abbrev Arrivals := String → Timestamp

structure Registry where
  lists : NamedLists
  records : Table String ListRecord
  blacklist : Blacklist
  deriving DecidableEq, Repr

namespace Registry

/-! ### Filling -/

/-- Registers a list, in place of one with the same name. -/
def upsert (r : Registry) (updated : Timestamp) (name : String) (list : AddressSet) : Registry :=
  { r with
    lists := r.lists.insert name list
    records := r.records.insert name (.of name list updated) }

/-- The registry of the baseline alone, as it is made at some time. -/
def fresh (made : Timestamp) : Registry :=
  upsert ⟨{}, {}, .empty⟩ made Baseline.name Baseline.addresses

instance : Inhabited Registry := ⟨fresh default⟩

/-- Registers lists in the order given. -/
def upsertAll (r : Registry) (times : Arrivals) (es : List (String × AddressSet)) : Registry :=
  es.foldl (fun r e => r.upsert (times e.1) e.1 e.2) r

/-- Registers every list of `lists`; the other lists stay. -/
def update (r : Registry) (times : Arrivals) (lists : NamedLists) : Registry :=
  r.upsertAll times lists.entries

def withBlacklist (r : Registry) (b : Blacklist) : Registry := { r with blacklist := b }

/-- Blocks these addresses whatever the list, for no recorded reason. -/
def withAddresses (r : Registry) (s : AddressSet) : Registry := r.withBlacklist (.ofSet s)

/-! ### Looking -/

/-- The names of the lists, in ascending order. -/
def names (r : Registry) : List String := r.lists.keys

def record? (r : Registry) (name : String) : Option ListRecord := r.records.get? name

/-- The records of all lists, in the order of their names. -/
def allRecords (r : Registry) : List ListRecord := r.names.filterMap r.record?

/-! ### Screening -/

/-- What is put on record in the course of a check. -/
inductive Finding
  /-- No list has this name. -/
  | unknownList (name : String)
  /-- An address is on the list. -/
  | listed (list : String) (address : Address)
  /-- An address is on the blacklist, for this reason. -/
  | blacklisted (address : Address) (reason : String)
  deriving DecidableEq, Repr

structure Verdict where
  compliant : Bool
  findings : List Finding
  deriving DecidableEq, Repr

/-- Stands for a reason where none is recorded. -/
def unspecified : String := "unspecified"

/-- The name of the list that is screened against, and what there is to say about the choice. -/
def resolve (r : Registry) (name : String) : String × List Finding :=
  if name = "" then (Baseline.name, [])
  else if r.lists.contains name then (name, [])
  else (Baseline.name, [.unknownList name])

/-- The first finding against the addresses: one on the named list if there is any, and else one
on the blacklist. -/
def finding? (r : Registry) (list : String) (as : List Address) : Option Finding :=
  let listed := do
    let s ← r.lists.get? list
    let a ← as.find? s.contains
    return Finding.listed list a
  let blacklisted := do
    let a ← as.find? r.blacklist.contains
    return Finding.blacklisted a ((r.blacklist.reason? a).getD unspecified)
  listed.or blacklisted

/-- Whether none of the addresses is sanctioned. -/
def check (r : Registry) (name : String) (as : List Address) : Verdict :=
  let (list, notes) := r.resolve name
  let hit := r.finding? list as
  ⟨hit.isNone, notes ++ hit.toList⟩

/-! ### Snapshots -/

/-- The binary form of the lists; the blacklist is not part of it. -/
def persist (r : Registry) : Bytes := Snapshot.encode r.lists

/-- Registers the lists of a snapshot, all or none, and yields how many there are. -/
def load (r : Registry) (times : Arrivals) (b : Bytes) :
    Except Snapshot.DecodeError (Nat × Registry) := do
  let lists ← Snapshot.decode b
  return (lists.size, r.update times lists)

end Registry

end ProposerBook
