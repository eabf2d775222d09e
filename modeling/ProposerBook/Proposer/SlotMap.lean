/-
What the proposer of each slot asks of a block.

A slot map is made from registrations.  One whose fee recipient is no address is
left out, and so counts neither for nor against its slot; of several for one slot the
last counts.  A list name that is empty is none.
-/
import ProposerBook.Address
import ProposerBook.Proposer.Registration
import ProposerBook.Table
import ProposerBook.Text.Lowercase

namespace ProposerBook

/-- What a block has to honour. -/
structure Preferences where
  pubkey : String
  feeRecipient : Address
  gasLimit : UInt64
  complianceList : Option String
  deriving DecidableEq, Repr

abbrev SlotMap := Table UInt64 Preferences

namespace Registration

/-- The address that the fees go to, blanks at both ends aside. -/
def feeRecipient? (r : Registration) : Option Address :=
  (Address.parse (Text.trim r.entry.message.feeRecipient)).toOption

/-- What the registration asks for: keys in lower case, and no empty list name. -/
def preferences? (r : Registration) : Option Preferences :=
  r.feeRecipient?.map fun a =>
    { pubkey := Text.lower r.entry.message.pubkey
      feeRecipient := a
      gasLimit := r.entry.message.gasLimit
      complianceList := r.complianceList.filter (· != "") }

end Registration

namespace SlotMap

def ofRegistrations (rs : List Registration) : SlotMap :=
  Table.ofList (rs.filterMap fun r => r.preferences?.map (r.slot, ·))

/-- The registrations that are left out. -/
def malformed (rs : List Registration) : List Registration :=
  rs.filter fun r => r.feeRecipient?.isNone

/-- The list names that occur, each once and in ascending order. -/
def listNames (m : SlotMap) : List String :=
  (Table.ofList ((m.values.filterMap Preferences.complianceList).map (·, ()))).keys

end SlotMap

end ProposerBook
