/-
Sets of characters given by ranges of code points.
-/

namespace ProposerBook

/-- Ranges of code points, each by its first and its last member. -/
abbrev CharRanges := List (Nat × Nat)

namespace CharRanges

def contains (rs : CharRanges) (c : Char) : Bool :=
  rs.any fun r => r.1 ≤ c.toNat && c.toNat ≤ r.2

end CharRanges

end ProposerBook
