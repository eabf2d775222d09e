/-
What is done to a registry while the program runs.

Lists are merged in and the blacklist is replaced, by whoever holds the registry.  Of the
operations that read a file each has its own way to fail, and one that fails leaves the
registry as it is.  Those that merge lists in have the times at which these come.
-/
import ProposerBook.Screening.Setup

namespace ProposerBook

namespace Registry

inductive Operation
  /-- Blocks these addresses and no others, for no recorded reason. -/
  | block (s : AddressSet)
  /-- Blocks what a blacklist says. -/
  | readBlacklist (file : FileContent)
  /-- Merges lists in. -/
  | update (times : Arrivals) (lists : NamedLists)
  /-- Merges the lists of a snapshot in. -/
  | load (times : Arrivals) (file : FileContent)

/-- What an operation makes of a registry. -/
def perform (r : Registry) : Operation → Registry
  | .block s => r.withAddresses s
  | .readBlacklist file =>
    match Blacklist.ofFile file with
    | .ok b => r.withBlacklist b
    | .error _ => r
  | .update times lists => r.update times lists
  | .load times file =>
    match r.loadFile times file with
    | .ok (_, s) => s
    | .error _ => r

/-- What becomes of a registry when these operations follow one another. -/
def after (r : Registry) (os : List Operation) : Registry := os.foldl perform r

/-- What set-up does with a snapshot: one that is not there is left out. -/
def snapshotLoads (times : Arrivals) : Option FileContent → List Operation
  | none => []
  | some c => if c.isThere then [.load times c] else []

/-- What set-up does with the files. -/
def configured (times : Arrivals) (blacklist snapshot : Option FileContent) : List Operation :=
  (blacklist.map Operation.readBlacklist).toList ++ snapshotLoads times snapshot

end Registry

end ProposerBook
