/-
When tasks go on.

Time passes only while everything waits.  As long as some task can move at the present
time, the first of these in the order of the tasks moves; when none can, the time of
the earliest request or pause comes.  A task that somebody awaits goes before the
others.  No move starts a task, and each takes one nearer to its end, so whatever is
going on comes to an end.
-/
import ProposerBook.Relay.Task

namespace ProposerBook

/-! ### A move takes a task nearer to its end -/

def Progress.weight (retries : Nat) : Progress → Nat
  | .goesOn phase => phase.weight retries
  | .ends _ => 0

namespace Relay

theorem endLists_weight (r : Relay) (t : Task) (o : Outcome) :
    (r.endLists t o).2.weight t.retries = 0 := by
  unfold endLists
  split <;> rfl

theorem askLists_weight (r : Relay) (n : Nat) (names : List String) (left : Nat) :
    (r.askLists names left).2.weight n = 2 * left + 2 := rfl

theorem beginLists_weight (r : Relay) (t : Task) :
    (r.beginLists t).2.weight t.retries ≤ 2 * t.retries + 2 := by
  unfold beginLists
  split
  · rw [endLists_weight]
    exact Nat.zero_le _
  · exact Nat.le_of_eq (askLists_weight ..)

theorem takeLists_weight (r : Relay) (t : Task) (names : List String) (left : Nat)
    (x : Except RelayError NamedLists) :
    (r.takeLists t names left x).2.weight t.retries < 2 * left + 2 := by
  unfold takeLists
  split
  · rw [endLists_weight]
    omega
  · rw [endLists_weight]
    omega
  · simp only [Progress.weight, Phase.weight]
    omega

theorem beginListsIfWanted_weight (r : Relay) (t : Task) (o : Outcome) :
    (r.beginListsIfWanted t o).2.weight t.retries ≤ 2 * t.retries + 2 := by
  unfold beginListsIfWanted
  split
  · exact beginLists_weight r t
  · exact Nat.zero_le _

theorem endValidators_weight (r : Relay) (t : Task) (o : Outcome) :
    (r.endValidators t o).2.weight t.retries ≤ 2 * t.retries + 2 := by
  unfold endValidators
  split <;> first | exact beginListsIfWanted_weight _ t _ | exact Nat.zero_le _

theorem beginValidators_weight (r : Relay) (t : Task) :
    (r.beginValidators t).2.weight t.retries < 4 * t.retries + 8 := by
  unfold beginValidators
  split
  · have := endValidators_weight r t (.error .busy)
    omega
  · simp only [askValidators, Progress.weight, Phase.weight]
    omega

theorem takeValidators_weight (r : Relay) (t : Task) (left : Nat)
    (x : Except RelayError (List Registration)) :
    (r.takeValidators t left x).2.weight t.retries < 2 * left + 2 + (2 * t.retries + 3) := by
  unfold takeValidators
  split
  · refine Nat.lt_of_le_of_lt (endValidators_weight _ t _) ?_
    omega
  · refine Nat.lt_of_le_of_lt (endValidators_weight _ t _) ?_
    omega
  · simp only [Progress.weight, Phase.weight]
    omega

/-- A move takes its task nearer to the end. -/
theorem move_weight (r : Relay) (t : Task) : (r.move t).2.weight t.retries < t.weight := by
  unfold move Task.weight
  split <;> rename_i h <;> rw [h] <;> simp only [Phase.weight]
  · split
    · have := beginLists_weight r t
      omega
    · exact beginValidators_weight r t
  · exact takeValidators_weight r t _ _
  · simp only [askValidators, Progress.weight, Phase.weight]
    omega
  · exact takeLists_weight r t _ _ _
  · rw [askLists_weight]
    omega

/-! ### Turns -/

/-- The first task that can move, with the tasks before it and after it. -/
def firstReady (now : Nat) : List Task → Option (List Task × Task × List Task)
  | [] => none
  | t :: ts =>
    if t.phase.due ≤ now then some ([], t, ts)
    else (firstReady now ts).map fun (before, u, after) => (t :: before, u, after)

/-- Lets the first task move that can. -/
def turn? (r : Relay) : Option Relay :=
  (firstReady r.now r.tasks).map fun (before, t, after) =>
    let (r, p) := r.move t
    match p with
    | .goesOn phase => { r with tasks := before ++ { t with phase } :: after }
    | .ends o => { r with tasks := before ++ after, outcomes := (t.id, o) :: r.outcomes }

/-- How much there is left to do in some tasks. -/
def totalWeight : List Task → Nat
  | [] => 0
  | t :: ts => t.weight + totalWeight ts

theorem totalWeight_append (ts us : List Task) :
    totalWeight (ts ++ us) = totalWeight ts + totalWeight us := by
  induction ts with
  | nil => simp [totalWeight]
  | cons t ts ih => simp only [List.cons_append, totalWeight, ih, Nat.add_assoc]

/-- How much there is left to do. -/
def weight (r : Relay) : Nat := totalWeight r.tasks

theorem firstReady_eq {now : Nat} {ts before after : List Task} {t : Task}
    (h : firstReady now ts = some (before, t, after)) : ts = before ++ t :: after := by
  induction ts generalizing before with
  | nil => cases h
  | cons u us ih =>
    unfold firstReady at h
    split at h
    · cases h
      rfl
    · rw [Option.map_eq_some_iff] at h
      obtain ⟨⟨b, x, a⟩, hb, he⟩ := h
      cases he
      rw [ih hb]
      rfl

theorem turn?_weight {r s : Relay} (h : r.turn? = some s) : s.weight < r.weight := by
  unfold turn? at h
  rw [Option.map_eq_some_iff] at h
  obtain ⟨⟨before, t, after⟩, hr, hs⟩ := h
  have ht := move_weight r t
  unfold weight
  rw [firstReady_eq hr]
  revert hs
  cases hp : (r.move t).2 with
  | goesOn phase =>
    intro hs
    simp only [hp] at hs
    subst hs
    rw [hp] at ht
    have hu : Task.weight { t with phase } < t.weight := ht
    simp only [totalWeight_append, totalWeight]
    omega
  | ends o =>
    intro hs
    simp only [hp] at hs
    subst hs
    simp only [totalWeight_append, totalWeight]
    omega

/-! ### Time -/

/-- The earliest time at which some task can move. -/
def nextDue? (r : Relay) : Option Nat := (r.tasks.map fun t => t.phase.due).min?

/-- Lets time pass up to `t`, while nothing happens. -/
def waitUntil (r : Relay) (t : Nat) : Relay := { r with now := max r.now t }

/-- Lets one task move: at once if some task can, and else when the time of one has come, which
`limit` bounds. -/
def tick? (r : Relay) (limit : Option Nat) : Option Relay :=
  match r.turn? with
  | some s => some s
  | none =>
    match r.nextDue? with
    | none => none
    | some due =>
      if limit.all (due ≤ ·) then (r.waitUntil due).turn? else none

theorem tick?_weight {r s : Relay} {limit : Option Nat} (h : r.tick? limit = some s) :
    s.weight < r.weight := by
  unfold tick? at h
  split at h
  · rename_i hs
    cases h
    exact turn?_weight hs
  · split at h
    · cases h
    · rename_i due _
      split at h
      · exact turn?_weight (r := r.waitUntil due) h
      · cases h

/-- Lets everything happen that happens up to a time. -/
def runUntil (r : Relay) (limit : Nat) : Relay :=
  match _h : r.tick? (some limit) with
  | some s => s.runUntil limit
  | none => r
termination_by r.weight
decreasing_by exact tick?_weight _h

/-- Lets every task move that can at the present time. -/
def settle (r : Relay) : Relay := r.runUntil r.now

/-- Lets `ms` milliseconds pass. -/
def advance (r : Relay) (ms : Nat) : Relay :=
  { r.runUntil (r.now + ms) with now := r.now + ms }

/-- Lets time pass until a task is finished. -/
def await (r : Relay) (id : Nat) : Relay :=
  if (r.outcome? id).isSome then r
  else
    match _h : r.tick? none with
    | some s => s.await id
    | none => r
termination_by r.weight
decreasing_by exact tick?_weight _h

/-- Starts a task and awaits its end.  While it is awaited it goes before the others. -/
def perform (r : Relay) (purpose : Purpose) (slot : UInt64) (retries : Nat) :
    Option Outcome × Relay :=
  let task : Task := { id := r.nextId, purpose, slot, retries }
  let s := { r with tasks := task :: r.tasks, nextId := r.nextId + 1 }.await r.nextId
  (s.outcome? r.nextId, s)

/-- How often the sync at the start tries again. -/
def startupRetries : Nat := 3

/-- Fills a new book. -/
def start (r : Relay) : Relay := (r.perform .startup 0 startupRetries).2

end Relay

end ProposerBook
