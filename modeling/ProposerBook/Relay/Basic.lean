/-
The book of what proposers ask for.

It holds the slot map of the last successful sync, and answers from it at once,
whatever is going on in the background.  The operator's overrides come first.  A
lookup that finds the book older than the epoch of its slot also starts a sync.

This module has the state and what can be asked of it; how a sync goes on is told in
`Relay.Task`, and when in `Relay.Schedule`.
-/
import ProposerBook.Proposer.Clock
import ProposerBook.Proposer.SlotMap
import ProposerBook.Relay.Log
import ProposerBook.Relay.Remote
import ProposerBook.Relay.Settings
import ProposerBook.Screening.Registry

namespace ProposerBook

/-! ### The state -/

/-- What the last successful sync brought, and the slot it was for. -/
structure Cache where
  slots : SlotMap := {}
  lastSynced : Option UInt64 := none

/-- Whether the cache is from an epoch before the one of `slot`. -/
def Cache.isStale (c : Cache) (slot : UInt64) : Bool :=
  match c.lastSynced with
  | none => true
  | some last => epoch last < epoch slot

/-- What a task is there for. -/
inductive Purpose
  /-- The sync that fills the book at the start. -/
  | startup
  /-- The sync that a lookup starts. -/
  | lookup
  /-- A sync of the slot map alone. -/
  | validators
  /-- A sync of the lists alone. -/
  | lists
  deriving DecidableEq, Repr

/-- Where a task stands.  Requests and pauses have the time at which they are over, and the number
of attempts that are left after the present one. -/
inductive Phase
  | waiting
  | asking (due left : Nat) (reply : Reply (List Registration))
  | pausing (due left : Nat)
  | askingLists (names : List String) (due left : Nat) (reply : Reply NamedLists)
  | pausingLists (names : List String) (due left : Nat)

structure Task where
  id : Nat
  purpose : Purpose
  slot : UInt64
  retries : Nat
  phase : Phase := .waiting

/-- How a task ends: with the number of entries it brought. -/
abbrev Outcome := Except RelayError Nat

structure Relay where
  settings : RelaySettings
  /-- Blocks are submitted so that they can be cancelled later. -/
  cancellations : Bool := false
  /-- How long a task pauses between attempts. -/
  retryDelay : Nat := 1000
  /-- Whether lookups see the overrides. -/
  overriding : Bool := false
  overrides : SlotMap := {}
  cache : Cache := {}
  /-- Some task is syncing the slot map. -/
  syncing : Bool := false
  registry : Registry := .fresh default
  /-- The clock on the wall: when a list comes in that does so many milliseconds after the start. -/
  clock : Nat → Arrivals := fun ms _ => ⟨ms * 1000000⟩
  remote : Remote := {}
  /-- Milliseconds since the start. -/
  now : Nat := 0
  /-- The tasks that are not finished, in the order in which they get their turn. -/
  tasks : List Task := []
  /-- How the finished tasks ended. -/
  outcomes : List (Nat × Outcome) := []
  /-- The name for the next task. -/
  nextId : Nat := 0
  log : List LogEvent := []

namespace Relay

/-- When a list comes in that does so now. -/
def arrivals (r : Relay) : Arrivals := r.clock r.now

def note (r : Relay) (level : LogLevel) (source : LogSource) (message : String)
    (fields : List (String × LogValue)) : Relay :=
  { r with log := r.log ++ [⟨level, source, message, fields⟩] }

def slotField (name : String) (slot : UInt64) : String × LogValue := (name, .number slot.toNat)

def errorField (e : RelayError) : String × LogValue := ("error", .shown e.message)

/-! ### Overrides -/

/-- What the operator lays down for a slot, if lookups see it. -/
def override? (r : Relay) (slot : UInt64) : Option Preferences :=
  if r.overriding then r.overrides.get? slot else none

/-- Lays down what counts for a slot. -/
def register (r : Relay) (slot : UInt64) (p : Preferences) : Relay :=
  { r with overrides := r.overrides.insert slot p }.note .info .overrides
    "Local validator registration"
    [slotField "slot" slot, ("pubkey", .shown p.pubkey),
      ("fee_recipient", .shown p.feeRecipient.toText)]

/-- Takes back what was laid down for a slot. -/
def unregister (r : Relay) (slot : UInt64) : Relay :=
  { r with overrides := r.overrides.erase slot }

/-! ### Answers -/

/-- What a block for `slot` has to honour. -/
def answer (r : Relay) (slot : UInt64) : Except RelayError Preferences :=
  match (r.override? slot).or (r.cache.slots.get? slot) with
  | some p => .ok p
  | none => .error .notFound

/-- Tells if an override decides. -/
def noteOverride (r : Relay) (slot : UInt64) : Relay :=
  match r.override? slot with
  | none => r
  | some p =>
    r.note .info .cache "Validator registration overwritten by local data"
      [slotField "slot" slot, ("pubkey", .shown p.pubkey)]

/-- Answers from the book alone. -/
def peek (r : Relay) (slot : UInt64) : Except RelayError Preferences × Relay :=
  (r.answer slot, r.noteOverride slot)

/-- Adds a task after the others, and yields its name. -/
def spawn (r : Relay) (purpose : Purpose) (slot : UInt64) (retries : Nat) : Nat × Relay :=
  (r.nextId,
    { r with
      tasks := r.tasks ++ [{ id := r.nextId, purpose, slot, retries }]
      nextId := r.nextId + 1 })

/-- How often a sync that a lookup started tries again. -/
def lookupRetries : Nat := 1

/-- Answers from the book, and starts a sync if the book is older than the epoch of `slot`. -/
def lookup (r : Relay) (slot : UInt64) : Except RelayError Preferences × Relay :=
  let started := if r.cache.isStale slot then (r.spawn .lookup slot lookupRetries).2 else r
  (r.answer slot, started.noteOverride slot)

/-! ### Tasks seen from outside -/

/-- How a task ended, if it has. -/
def outcome? (r : Relay) (id : Nat) : Option Outcome := r.outcomes.lookup id

/-- Drops a task.  If it was syncing the slot map, another one may. -/
def abort (r : Relay) (id : Nat) : Relay :=
  let holds := r.tasks.any fun t => t.id == id && match t.phase with
    | .asking .. | .pausing .. => true
    | _ => false
  { r with
    tasks := r.tasks.filter fun t => t.id != id
    syncing := r.syncing && !holds }

/-- How the book presents itself. -/
def describe (r : Relay) : String :=
  let last := match r.cache.lastSynced with
    | none => "None"
    | some s => s!"Some({s})"
  "RemoteRelay \x7b endpoint: " ++ Text.quoted r.settings.endpoint.toText
    ++ ", last_synced_slot: " ++ last ++ " \x7d"

end Relay

end ProposerBook
