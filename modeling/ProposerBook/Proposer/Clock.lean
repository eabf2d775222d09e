/-
From the time of day to slots.

Slots follow each other at a fixed pace from the genesis of the chain; before it the
slot is 0.
-/

namespace ProposerBook

/-- How many slots make an epoch. -/
def slotsPerEpoch : UInt64 := 32

def epoch (slot : UInt64) : UInt64 := slot / slotsPerEpoch

/-- The beginning of slot 0, and the length of a slot, in seconds. -/
structure SlotClock where
  genesisTime : UInt64
  secondsPerSlot : UInt64
  deriving DecidableEq, Repr

/-- A clock may fail because its slots have no length. -/
inductive ClockError
  | zeroLength
  deriving DecidableEq, Repr

def ClockError.message : ClockError → String
  | .zeroLength => "attempt to divide by zero"

/-- The slot at a time. -/
def SlotClock.slotOf (c : SlotClock) (t : UInt64) : Except ClockError UInt64 :=
  if c.secondsPerSlot = 0 then .error .zeroLength
  else .ok ((if t < c.genesisTime then 0 else t - c.genesisTime) / c.secondsPerSlot)

end ProposerBook
