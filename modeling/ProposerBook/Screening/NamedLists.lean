/-
Screening lists by name: each name stands for a set of addresses.

A name is any text, the empty one included; names are ordered by their code points,
which is the order of their UTF-8 bytes.
-/
import ProposerBook.Screening.AddressSet
import ProposerBook.Table

namespace ProposerBook

/-- A set of addresses for each of finitely many names. -/
abbrev NamedLists := Table String AddressSet

end ProposerBook
