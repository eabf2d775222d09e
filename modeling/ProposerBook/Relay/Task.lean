/-
How a sync goes on.

A sync of the slot map holds the flag `syncing` from its first request to its last
answer, so there is one at a time; who comes second is told that the book is busy.  It
asks until it gets an answer or has no attempt left, pausing in between.  An answer
replaces the slot map as a whole, a failure leaves it as it is.

A sync of the lists asks for the names that occur in the slot map when it begins, and
registers what it gets.  Any number of these may run.  At the start, and after a sync
that a lookup started, the one follows the other, if lists are wanted at all.

`Relay.move` makes one move of one task.  Each move takes the task nearer to its end,
by the measure `Task.weight`.  A move goes from one wait to the next, and what is done in it is
done at once: when an answer has come, the new slot map, the flag that goes down and the names of
the lists that are asked for next are one move, so that these are the names in the map of this
very answer.  In between another thread might come, and have put in another map before the names
are read; such runs are left out here.
-/
import ProposerBook.Relay.Basic

namespace ProposerBook

/-- What comes of a move. -/
inductive Progress
  | goesOn (phase : Phase)
  | ends (o : Outcome)

/-- When a task can move. -/
def Phase.due : Phase → Nat
  | .waiting => 0
  | .asking due _ _ => due
  | .pausing due _ => due
  | .askingLists _ due _ _ => due
  | .pausingLists _ due _ => due

/-- How far a phase is from the end, for a task that may try again `retries` times. -/
def Phase.weight (retries : Nat) : Phase → Nat
  | .waiting => 4 * retries + 8
  | .asking _ left _ => 2 * left + 2 + (2 * retries + 3)
  | .pausing _ left => 2 * left + 3 + (2 * retries + 3)
  | .askingLists _ _ left _ => 2 * left + 2
  | .pausingLists _ _ left => 2 * left + 3

def Task.weight (t : Task) : Nat := t.phase.weight t.retries

namespace Relay

/-! ### The lists -/

/-- Makes a request for lists. -/
def askLists (r : Relay) (names : List String) (left : Nat) : Relay × Progress :=
  let (p, remote) := r.remote.askLists names
  ({ r with remote }, .goesOn (.askingLists names (r.now + p.delay) left p.reply))

/-- Ends a sync of the lists. -/
def endLists (r : Relay) (t : Task) (o : Outcome) : Relay × Progress :=
  match t.purpose, o with
  | .startup, .error e =>
    (r.note .error .cache
      "Could not connect to remote relay to update compliance lists, continuing anyway"
      [errorField e], .ends o)
  | .lookup, .error e =>
    (r.note .error .cache "Could not update compliance lists"
      [slotField "slot" t.slot, errorField e], .ends o)
  | _, _ => (r, .ends o)

/-- Begins a sync of the lists. -/
def beginLists (r : Relay) (t : Task) : Relay × Progress :=
  match SlotMap.listNames r.cache.slots with
  | [] =>
    (r.note .info .cache
      "Skipping compliance list update, no validator requested a compliance list this epoch"
      [slotField "current_slot" t.slot]).endLists t (.ok 0)
  | names =>
    (r.note .info .cache "Requesting compliance lists"
      [slotField "current_slot" t.slot, ("lists", .shown (Text.quotedSet names))]).askLists
        names t.retries

/-- Takes an answer to a request for lists. -/
def takeLists (r : Relay) (t : Task) (names : List String) (left : Nat)
    (x : Except RelayError NamedLists) : Relay × Progress :=
  match x, left with
  | .ok lists, _ =>
    let r := { r with registry := r.registry.update r.arrivals lists }
    (r.note .info .cache "Updated compliance lists"
      [("count", .number lists.size), slotField "slot" t.slot]).endLists t (.ok lists.size)
  | .error e, 0 =>
    (r.note .error .cache "Could not get compliance lists from relay"
      [errorField e]).endLists t (.error e)
  | .error e, left + 1 =>
    (r.note .warn .cache "Relay request failed, retrying"
      [("what", .text "compliance lists"), errorField e, ("remaining", .number (left + 1))],
      .goesOn (.pausingLists names (r.now + r.retryDelay) left))

/-! ### The slot map -/

/-- Makes a request for registrations. -/
def askValidators (r : Relay) (left : Nat) : Relay × Progress :=
  let (p, remote) := r.remote.askValidators
  ({ r with remote }, .goesOn (.asking (r.now + p.delay) left p.reply))

/-- Goes on to the lists, if they are wanted. -/
def beginListsIfWanted (r : Relay) (t : Task) (o : Outcome) : Relay × Progress :=
  if r.settings.complianceLists then r.beginLists t else (r, .ends o)

/-- Ends a sync of the slot map. -/
def endValidators (r : Relay) (t : Task) (o : Outcome) : Relay × Progress :=
  match t.purpose, o with
  | .startup, .error e =>
    (r.note .error .cache
      "Could not connect to remote relay to update validators map, continuing anyway"
      [errorField e]).beginListsIfWanted t o
  | .lookup, .error .busy =>
    (r.note .debug .cache "Validator sync already in flight" [slotField "slot" t.slot], .ends o)
  | .lookup, .error e =>
    (r.note .error .cache "Could not update validators map"
      [slotField "slot" t.slot, errorField e]).beginListsIfWanted t o
  | .startup, .ok _ | .lookup, .ok _ => r.beginListsIfWanted t o
  | _, _ => (r, .ends o)

/-- Begins a sync of the slot map, if no other one is going on. -/
def beginValidators (r : Relay) (t : Task) : Relay × Progress :=
  if r.syncing then r.endValidators t (.error .busy)
  else
    ({ r with syncing := true }.note .info .cache "Requesting validators"
      [slotField "current_slot" t.slot]).askValidators t.retries

/-- Tells of each registration that is left out. -/
def noteMalformed (r : Relay) (rs : List Registration) : Relay :=
  (SlotMap.malformed rs).foldl (fun r x =>
    r.note .error .cache "Ill-formatted fee_recipient from relay"
      [errorField (.malformedAddress x.slot x.entry.message.feeRecipient),
        ("pubkey", .shown x.entry.message.pubkey)]) r

/-- Takes an answer to a request for registrations. -/
def takeValidators (r : Relay) (t : Task) (left : Nat)
    (x : Except RelayError (List Registration)) : Relay × Progress :=
  match x, left with
  | .ok rs, _ =>
    let slots := SlotMap.ofRegistrations rs
    ({ r.noteMalformed rs with
      cache := ⟨slots, some t.slot⟩
      syncing := false }.note .info .cache "Updated validators"
      [("count", .number slots.size), slotField "slot" t.slot]).endValidators t (.ok slots.size)
  | .error e, 0 =>
    ({ r with syncing := false }.note .error .cache "Could not get validators map from relay"
      [errorField e]).endValidators t (.error e)
  | .error e, left + 1 =>
    (r.note .warn .cache "Relay request failed, retrying"
      [("what", .text "validators map"), errorField e, ("remaining", .number (left + 1))],
      .goesOn (.pausing (r.now + r.retryDelay) left))

/-! ### One move -/

/-- What a task does when its time has come. -/
def move (r : Relay) (t : Task) : Relay × Progress :=
  match t.phase with
  | .waiting =>
    match t.purpose with
    | .lists => r.beginLists t
    | _ => r.beginValidators t
  | .asking _ left reply => r.takeValidators t left (reply.resolve r.remote.validators)
  | .pausing _ left => r.askValidators left
  | .askingLists names _ left reply =>
    r.takeLists t names left (reply.resolve (r.remote.listsNamed names))
  | .pausingLists names _ left => r.askLists names left

end Relay

end ProposerBook
