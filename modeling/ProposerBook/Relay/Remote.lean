/-
The relay at the other end.

It answers by a plan: for each kind of request a queue of answers, each with the time
it takes, and after those a standing answer which takes none.  An answer may also be
put off to the standing one, and is then what stands when the time is over.  What the
relay was asked is kept.
-/
import ProposerBook.Json.Value
import ProposerBook.Proposer.Registration
import ProposerBook.Relay.Error
import ProposerBook.Screening.NamedLists

namespace ProposerBook

/-- How a request ends. -/
inductive Reply (α : Type)
  | standing
  | answer (x : Except RelayError α)

/-- How a request ends, and after how many milliseconds. -/
structure Planned (α : Type) where
  delay : Nat
  reply : Reply α

/-- A block as it is sent. -/
inductive BlockBody
  | json (v : Json.Value)
  | ssz (b : Bytes)

structure Submission where
  body : BlockBody
  cancellations : Bool

structure Remote where
  /-- Answers to come. -/
  validatorPlan : List (Planned (List Registration)) := []
  listPlan : List (Planned NamedLists) := []
  submissionPlan : List (Planned Unit) := []
  /-- The standing answers. -/
  validators : List Registration := []
  lists : NamedLists := {}
  /-- What was asked. -/
  validatorCalls : Nat := 0
  listRequests : List (List String) := []
  submissions : List Submission := []

namespace Remote

/-- The next answer of a plan. -/
def next : List (Planned α) → Planned α × List (Planned α)
  | [] => (⟨0, .standing⟩, [])
  | p :: ps => (p, ps)

/-- Asks for the registrations. -/
def askValidators (r : Remote) : Planned (List Registration) × Remote :=
  let (p, ps) := next r.validatorPlan
  (p, { r with validatorPlan := ps, validatorCalls := r.validatorCalls + 1 })

/-- Asks for the lists with these names. -/
def askLists (r : Remote) (names : List String) : Planned NamedLists × Remote :=
  let (p, ps) := next r.listPlan
  (p, { r with listPlan := ps, listRequests := r.listRequests ++ [names] })

/-- Hands in a block. -/
def submit (r : Remote) (s : Submission) : Planned Unit × Remote :=
  let (p, ps) := next r.submissionPlan
  (p, { r with submissionPlan := ps, submissions := r.submissions ++ [s] })

/-- The standing lists with these names. -/
def listsNamed (r : Remote) (names : List String) : NamedLists :=
  Table.ofList (r.lists.entries.filter fun e => names.contains e.1)

end Remote

/-- An answer, where `standing` is the standing one. -/
def Reply.resolve (reply : Reply α) (standing : α) : Except RelayError α :=
  match reply with
  | .standing => .ok standing
  | .answer x => x

end ProposerBook
