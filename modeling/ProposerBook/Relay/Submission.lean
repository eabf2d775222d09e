/-
Handing in blocks.

A block belongs to a fork of the chain, and only those of the latest three can be
submitted.  It goes out in the form that the settings name, once: whatever the relay
answers is the answer.
-/
import ProposerBook.Relay.Schedule

namespace ProposerBook

/-- The forks that a block may belong to. -/
inductive DataVersion
  | phase0
  | altair
  | bellatrix
  | capella
  | deneb
  deriving DecidableEq, Repr

def DataVersion.name : DataVersion → String
  | .phase0 => "phase0"
  | .altair => "altair"
  | .bellatrix => "bellatrix"
  | .capella => "capella"
  | .deneb => "deneb"

/-- Whether a relay takes blocks of a fork. -/
def DataVersion.isSubmittable : DataVersion → Bool
  | .phase0 | .altair => false
  | .bellatrix | .capella | .deneb => true

/-- What a block can be asked for.  In `m` being asked may have effects. -/
structure Payload (m : Type → Type) where
  version : m DataVersion
  json : m (Except RelayError Json.Value)
  ssz : m (Except RelayError Bytes)

/-- The form in which a block goes out.  The other one is not asked for. -/
def Payload.body [Monad m] (p : Payload m) (ssz : Bool) : m (Except RelayError BlockBody) := do
  if ssz then return (← p.ssz).map .ssz else return (← p.json).map .json

/-- A block that is known already. -/
structure Block where
  version : DataVersion
  json : Except RelayError Json.Value
  ssz : Except RelayError Bytes

def Block.payload [Monad m] (b : Block) : Payload m where
  version := pure b.version
  json := pure b.json
  ssz := pure b.ssz

namespace Relay

/-- Asks a block for what is handed in of it, or finds why nothing is. -/
def prepare [Monad m] (r : Relay) (p : Payload m) : m (Except RelayError Submission) := do
  let version ← p.version
  if version.isSubmittable then
    return (← p.body r.settings.ssz).map fun body => { body, cancellations := r.cancellations }
  else return .error (.unknownVersion version.name)

/-- What is handed in of a block, or why nothing is. -/
def submission (r : Relay) (b : Block) : Except RelayError Submission :=
  Id.run (r.prepare b.payload)

/-- Hands in a block and awaits the answer. -/
def submit (r : Relay) (b : Block) : Except RelayError Unit × Relay :=
  let r := r.note .info .cache "Submitting block to remote relay"
    [("endpoint", .shown r.settings.endpoint.toText), ("version", .shown b.version.name)]
  match r.submission b with
  | .error e => (.error e, r)
  | .ok s =>
    let (p, remote) := r.remote.submit s
    (p.reply.resolve (), { r with remote }.advance p.delay)

end Relay

end ProposerBook
