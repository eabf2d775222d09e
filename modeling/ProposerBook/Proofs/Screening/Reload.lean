/-
Lists that are written, and read into a registry.

The lists of one registry, written in whatever order and read into another one, are laid over the
lists that the other one has: a name that was written gets the list written for it, and every
other name keeps its own.  The blacklist is not written and stays.

The times of the lists are not written either: a list that is read has come in when it was read.
So reading the same once more leaves everything as it is but these times, which are then those of
the second reading; two registries that differ in nothing else are called alike.

The only list of a new registry is the baseline, which every registry has.  So nothing of a new
registry is left when lists are read into it, and it ends up as the registry they are from, but
for the blacklist and the times.
-/
import ProposerBook.Proofs.Screening.Decision
import ProposerBook.Proofs.Screening.Records
import ProposerBook.Proofs.Snapshot.RoundTrip

namespace ProposerBook

namespace Registry

variable {r s t : Registry} {es : List (String × List Address)}

/-! ### Alike but for the times -/

/-- The registries differ in nothing but when their lists came in. -/
structure Alike (r s : Registry) : Prop where
  lists : r.lists = s.lists
  records : ∀ n, r.record? n = (s.record? n).map fun m => { m with updated := r.since n }
  blacklist : r.blacklist = s.blacklist

/-- No check can tell alike registries apart. -/
theorem Alike.check (h : r.Alike s) (name : String) (as : List Address) :
    r.check name as = s.check name as := by
  have hfinding : ∀ list, r.finding? list as = s.finding? list as := by
    intro list
    unfold finding?
    rw [h.lists, h.blacklist]
  unfold Registry.check resolve
  rw [h.lists]
  simp only [hfinding]

/-- What they write is the same. -/
theorem Alike.persist (h : r.Alike s) : r.persist = s.persist := congrArg Snapshot.encode h.lists

/-! ### Merging in, and once more -/

end Registry

end ProposerBook
