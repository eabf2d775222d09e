/-
Runs of a book.

A run is a list of events, and any list will do: tasks may move in whatever order once
their time has come, time may pass while others wait, the other side may change its
answers and the delays it takes at any moment, and whoever has the book may look up, ask
for syncs and drop them again.  Nobody has the book before its first sync is over, so
until then a call has no effect.  The registry and the overrides are shared with others,
who may change them at any time.

The scheduler of `Relay.Schedule` lets tasks move in one particular order.  That what it
does is a run in this sense is shown in `Proofs.Relay.Schedule`.
-/
import ProposerBook.Proofs.Relay.Move
import ProposerBook.Proofs.Screening.Operation
import ProposerBook.Relay.Inspection
import ProposerBook.Relay.Submission

namespace ProposerBook

/-- What can be asked of a book by somebody who has it. -/
inductive Call
  | lookup (slot : UInt64)
  | peek (slot : UInt64)
  | inspect (q : Inspection.Request)
  /-- A sync of the slot map, which the caller may wait for. -/
  | sync (awaited : Bool) (slot : UInt64) (retries : Nat)
  /-- A sync of the lists, which the caller may wait for. -/
  | syncLists (awaited : Bool) (slot : UInt64) (retries : Nat)
  | submit (b : Block)
  /-- A task is dropped. -/
  | abort (id : Nat)

inductive Event
  | call (c : Call)
  /-- A task moves, if its time has come. -/
  | move (id : Nat)
  /-- Time passes, while nothing moves. -/
  | pass (ms : Nat)
  /-- The other side settles on other answers. -/
  | answers (remote : Remote)
  | register (slot : UInt64) (p : Preferences)
  | unregister (slot : UInt64)
  /-- Somebody else makes use of the registry. -/
  | registry (o : Registry.Operation)

/-- The other side with the answers of `new`; what it was asked stays. -/
def Remote.answering (old new : Remote) : Remote :=
  { new with
    validatorCalls := old.validatorCalls
    listRequests := old.listRequests
    submissions := old.submissions }

namespace Relay

/-! ### What happens -/

/-- Adds a task.  One that is awaited goes before the others. -/
def begin (r : Relay) (awaited : Bool) (purpose : Purpose) (slot : UInt64) (retries : Nat) :
    Relay :=
  let task : Task := { id := r.nextId, purpose, slot, retries }
  { r with
    tasks := if awaited then task :: r.tasks else r.tasks ++ [task]
    nextId := r.nextId + 1 }

/-- Sends a block, if it can be sent. -/
def handIn (r : Relay) (b : Block) : Relay :=
  let r := r.note .info .cache "Submitting block to remote relay"
    [("endpoint", .shown r.settings.endpoint.toText), ("version", .shown b.version.name)]
  match r.submission b with
  | .error _ => r
  | .ok s => { r with remote := (r.remote.submit s).2 }

/-- The book is being filled for the first time. -/
def isOpening (r : Relay) : Bool := r.tasks.any fun t => t.purpose == .startup

def serve (r : Relay) : Call → Relay
  | .lookup slot => (r.lookup slot).2
  | .peek slot => (r.peek slot).2
  | .inspect q => (r.inspect q).2
  | .sync awaited slot retries => r.begin awaited .validators slot retries
  | .syncLists awaited slot retries => r.begin awaited .lists slot retries
  | .submit b => r.handIn b
  | .abort id => r.abort id

/-- A move of `t`, which stands between `before` and `after`. -/
def moved (r : Relay) (before : List Task) (t : Task) (after : List Task) : Relay :=
  let (s, p) := r.move t
  { s with
    tasks := before ++ (p.remains t ++ after)
    outcomes := p.record t ++ s.outcomes }

/-- The task with this name, if it can move, with the tasks before it and after it. -/
def ready? (r : Relay) (id : Nat) : Option (List Task × Task × List Task) :=
  match r.tasks.dropWhile fun t => t.id != id with
  | [] => none
  | t :: after =>
    if t.phase.due ≤ r.now then some (r.tasks.takeWhile fun t => t.id != id, t, after) else none

def occur (r : Relay) : Event → Relay
  | .call c => if r.isOpening then r else r.serve c
  | .move id =>
    match r.ready? id with
    | none => r
    | some (before, t, after) => r.moved before t after
  | .pass ms => { r with now := r.now + ms }
  | .answers remote => { r with remote := r.remote.answering remote }
  | .register slot p => r.register slot p
  | .unregister slot => r.unregister slot
  | .registry o => { r with registry := r.registry.perform o }

/-- What becomes of a book when these events happen one after the other. -/
def run (r : Relay) (es : List Event) : Relay := es.foldl occur r

/-- An empty book with the settings and everything else of `r`, whose first sync is about to
begin. -/
def opened (r : Relay) : Relay :=
  { r with
    cache := {}
    syncing := false
    tasks := [{ id := 0, purpose := .startup, slot := 0, retries := startupRetries }]
    outcomes := []
    nextId := 1 }

/-- A book as it may be found while the program runs. -/
def Reachable (s : Relay) : Prop := ∃ r es, s = (opened r).run es

theorem run_append (r : Relay) (es fs : List Event) : r.run (es ++ fs) = (r.run es).run fs :=
  List.foldl_append

theorem run_cons (r : Relay) (e : Event) (es : List Event) :
    r.run (e :: es) = (r.occur e).run es := rfl

theorem Reachable.run {s : Relay} (h : Reachable s) (es : List Event) : Reachable (s.run es) := by
  obtain ⟨r, ds, rfl⟩ := h
  exact ⟨r, ds ++ es, (run_append _ _ _).symm⟩

/-- What holds of every new book, and stays when something happens, holds of every book. -/
theorem Reachable.induct {P : Relay → Prop} (new : ∀ r, P (opened r))
    (step : ∀ r e, P r → P (r.occur e)) {s : Relay} (h : Reachable s) : P s := by
  obtain ⟨r, es, rfl⟩ := h
  have hrun : ∀ (es : List Event) (r : Relay), P r → P (r.run es) := by
    intro es
    induction es with
    | nil => intro r hr; exact hr
    | cons e es ih => intro r hr; exact ih _ (step r e hr)
  exact hrun es _ (new r)

/-! ### In between -/

/-- The book after the first `k` of these events. -/
def stage (r : Relay) (es : List Event) (k : Nat) : Relay := r.run (es.take k)

theorem stage_zero (r : Relay) (es : List Event) : r.stage es 0 = r := rfl

theorem stage_of_length_le {r : Relay} {es : List Event} {k : Nat} (h : es.length ≤ k) :
    r.stage es k = r.run es := by
  unfold stage
  rw [List.take_of_length_le h]

theorem stage_succ {r : Relay} {es : List Event} {k : Nat} {e : Event} (h : es[k]? = some e) :
    r.stage es (k + 1) = (r.stage es k).occur e := by
  unfold stage
  rw [List.take_add_one, h, run_append]
  rfl

theorem stage_succ_of_none {r : Relay} {es : List Event} {k : Nat} (h : es[k]? = none) :
    r.stage es (k + 1) = r.stage es k := by
  have hlength := List.getElem?_eq_none_iff.mp h
  rw [stage_of_length_le hlength, stage_of_length_le (Nat.le_succ_of_le hlength)]

theorem Reachable.stage (r : Relay) (es : List Event) (k : Nat) :
    Reachable ((opened r).stage es k) := ⟨r, es.take k, rfl⟩

/-- What each event keeps from some stage on holds from that stage on. -/
theorem stage_induct {r : Relay} {es : List Event} {P : Relay → Prop} {k : Nat}
    (now : P (r.stage es k))
    (step : ∀ j e, k ≤ j → es[j]? = some e → P (r.stage es j) → P ((r.stage es j).occur e))
    {j : Nat} (hj : k ≤ j) : P (r.stage es j) := by
  induction hj with
  | refl => exact now
  | @step j hj ih =>
    cases he : es[j]? with
    | none =>
      rw [stage_succ_of_none he]
      exact ih
    | some e =>
      rw [stage_succ he]
      exact step j e hj he ih

/-! ### Who moves -/

theorem ready?_eq_some {r : Relay} {id : Nat} {before after : List Task} {t : Task}
    (h : r.ready? id = some (before, t, after)) :
    r.tasks = before ++ t :: after ∧ t.id = id ∧ t.phase.due ≤ r.now := by
  unfold ready? at h
  split at h
  · cases h
  · rename_i u us hdrop
    split at h
    · rename_i hdue
      cases h
      have hsplit :=
        List.takeWhile_append_dropWhile (p := fun t : Task => t.id != id) (l := r.tasks)
      have hid : (t.id != id) = false := by
        have := List.head?_dropWhile_not (p := fun t : Task => t.id != id) (l := r.tasks)
        rw [hdrop] at this
        simpa using this
      refine ⟨by rw [← hdrop, hsplit], ?_, hdue⟩
      simpa using hid
    · cases h

theorem mem_of_ready {r : Relay} {id : Nat} {before after : List Task} {t : Task}
    (h : r.ready? id = some (before, t, after)) : t ∈ r.tasks := by
  rw [(ready?_eq_some h).1]
  exact List.mem_append_right _ List.mem_cons_self

theorem occur_of_ready {r : Relay} {id : Nat} {before after : List Task} {t : Task}
    (h : r.ready? id = some (before, t, after)) : r.occur (.move id) = r.moved before t after := by
  unfold occur
  simp only [h]

theorem cache_of_ready {r : Relay} {id : Nat} {before after : List Task} {t : Task}
    (h : r.ready? id = some (before, t, after)) :
    (r.occur (.move id)).cache = (r.move t).1.cache := by
  rw [occur_of_ready h]
  rfl

/-- The first task with a name is the one that moves. -/
theorem ready?_of_tasks {r : Relay} {before after : List Task} {t : Task}
    (h : r.tasks = before ++ t :: after) (first : ∀ u ∈ before, u.id ≠ t.id)
    (due : t.phase.due ≤ r.now) : r.ready? t.id = some (before, t, after) := by
  have hdrop : (r.tasks.dropWhile fun u => u.id != t.id) = t :: after := by
    rw [h, List.dropWhile_append_of_pos fun u hu => by simpa using first u hu]
    rw [List.dropWhile_cons_of_neg (by simp)]
  have htake : (r.tasks.takeWhile fun u => u.id != t.id) = before := by
    rw [h, List.takeWhile_append_of_pos fun u hu => by simpa using first u hu]
    rw [List.takeWhile_cons_of_neg (by simp), List.append_nil]
  unfold ready?
  rw [hdrop, htake]
  exact if_pos due

end Relay

end ProposerBook
