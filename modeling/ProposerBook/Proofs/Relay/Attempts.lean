/-
A sync that has the book to itself.

Both kinds of sync go about it in one way.  They make a request; if it fails and an attempt is
left, they pause and make another one; and they end with the first answer that is a success, or
with the failure of the last attempt.  `Inquiry` has what tells the two kinds apart, and
`Inquiry.Lawful` says of a kind that its tasks move in this way.

While a task is alone, each tick is a move of this task at the time at which it is due.  So the
answers that the other side has ready decide how the sync ends, and when, and what it makes of the
book.  The induction is on the attempts in vain that precede the one that decides.
-/
import Mathlib.Algebra.GroupWithZero.Nat
import ProposerBook.Proofs.Relay.SingleFlight

namespace ProposerBook

namespace Relay

variable {α : Type}

/-! ### A task alone -/

theorem waitUntil_of_le {r : Relay} {time : Nat} (h : time ≤ r.now) : r.waitUntil time = r := by
  unfold waitUntil
  rw [Nat.max_eq_left h]

theorem waitUntil_later (r : Relay) (ms : Nat) :
    r.waitUntil (r.now + ms) = { r with now := r.now + ms } := by
  unfold waitUntil
  rw [Nat.max_eq_right (Nat.le_add_right _ _)]

theorem turn?_of_alone {r : Relay} {t : Task} (alone : r.tasks = [t])
    (due : t.phase.due ≤ r.now) : r.turn? = some (r.moved [] t []) := by
  have hfirst : firstReady r.now r.tasks = some ([], t, []) := by
    rw [alone]
    unfold firstReady
    exact if_pos due
  rw [turn?_eq, hfirst]
  rfl

/-- While a task is alone, the next thing to happen is its move. -/
theorem tick?_of_alone {r : Relay} {t : Task} (alone : r.tasks = [t]) :
    r.tick? none = some ((r.waitUntil t.phase.due).moved [] t []) := by
  unfold tick?
  by_cases hdue : t.phase.due ≤ r.now
  · rw [turn?_of_alone alone hdue, waitUntil_of_le hdue]
  · have hrests : r.turn? = none := by
      rw [turn?_eq, alone]
      unfold firstReady
      rw [if_neg hdue]
      rfl
    have hnext : r.nextDue? = some t.phase.due := by
      unfold nextDue?
      rw [alone]
      rfl
    rw [hrests, hnext]
    exact turn?_of_alone (r := r.waitUntil t.phase.due) alone (Nat.le_max_right _ _)

theorem await_of_alone {r : Relay} {t : Task} (alone : r.tasks = [t])
    (undone : r.outcome? t.id = none) :
    r.await t.id = ((r.waitUntil t.phase.due).moved [] t []).await t.id := by
  refine await_of_tick ?_ (tick?_of_alone alone)
  rw [undone]
  exact nofun

/-- A task that goes on is alone as before. -/
theorem await_of_goesOn {r q s : Relay} {t : Task} {phase : Phase} (alone : r.tasks = [t])
    (undone : r.outcome? t.id = none) (wait : r.waitUntil t.phase.due = q)
    (move : q.move t = (s, .goesOn phase)) :
    r.await t.id = ({ s with tasks := [{ t with phase }] } : Relay).await t.id := by
  rw [await_of_alone alone undone, moved_eq, wait, move]
  rfl

theorem await_of_ends {r q s : Relay} {t : Task} {o : Outcome} (alone : r.tasks = [t])
    (undone : r.outcome? t.id = none) (wait : r.waitUntil t.phase.due = q)
    (move : q.move t = (s, .ends o)) :
    r.await t.id = { s with tasks := [], outcomes := (t.id, o) :: s.outcomes } := by
  rw [await_of_alone alone undone, moved_eq, wait, move]
  refine await_of_done ?_
  show (List.lookup t.id ((t.id, o) :: s.outcomes)).isSome = true
  rw [List.lookup_cons_self]
  rfl

/-! ### A task that is awaited -/

theorem begin_tasks {r : Relay} (alone : r.tasks = []) (purpose : Purpose) (slot : UInt64)
    (retries : Nat) : (r.begin true purpose slot retries).tasks
      = [{ id := r.nextId, purpose, slot, retries }] := by
  simp [begin, alone]

theorem perform_of_await {r s : Relay} {purpose : Purpose} {slot : UInt64} {retries : Nat}
    {o : Outcome} {os : List (Nat × Outcome)}
    (await : (r.begin true purpose slot retries).await r.nextId = s)
    (ended : s.outcomes = (r.nextId, o) :: os) :
    r.perform purpose slot retries = (some o, s) := by
  have houtcome : s.outcome? r.nextId = some o := by
    unfold outcome?
    rw [ended]
    exact List.lookup_cons_self
  rw [← houtcome, ← await]
  rfl

/-! ### The two kinds of sync -/

/-- What tells the two kinds of sync apart, once they have begun. -/
structure Inquiry (α : Type) where
  purpose : Purpose
  asking : (due left : Nat) → Reply α → Phase
  pausing : (due left : Nat) → Phase
  /-- The answers that the other side has ready. -/
  plan : Remote → List (Planned α)
  standing : Remote → α
  ask : Remote → Planned α × Remote
  /-- Whether the flag is up meanwhile. -/
  flag : Bool
  /-- What an answer to a sync for a slot makes of the cache. -/
  cache : UInt64 → α → Cache → Cache
  registry : Arrivals → α → Registry → Registry
  /-- What the caller is told of an answer. -/
  size : α → Nat

namespace Inquiry

def cacheAfter (k : Inquiry α) (slot : UInt64) (c : Cache) : Except RelayError α → Cache
  | .ok x => k.cache slot x c
  | .error _ => c

def registryAfter (k : Inquiry α) (times : Arrivals) (g : Registry) :
    Except RelayError α → Registry
  | .ok x => k.registry times x g
  | .error _ => g

/-- The next `n` answers. -/
def ahead (k : Inquiry α) : Nat → Remote → List (Planned α)
  | 0, _ => []
  | n + 1, remote => (k.ask remote).1 :: k.ahead n (k.ask remote).2

/-- The other side after `n` more requests. -/
def asked (k : Inquiry α) : Nat → Remote → Remote
  | 0, remote => remote
  | n + 1, remote => k.asked n (k.ask remote).2

/-- How a sync of this kind goes on. -/
structure Lawful (k : Inquiry α) : Prop where
  due_asking : ∀ due left reply, (k.asking due left reply).due = due
  due_pausing : ∀ due left, (k.pausing due left).due = due
  ask_plan : ∀ {remote p ps}, k.plan remote = p :: ps →
    (k.ask remote).1 = p ∧ k.plan (k.ask remote).2 = ps
  standing_ask : ∀ remote, k.standing (k.ask remote).2 = k.standing remote
  /-- When a pause is over a request is made. -/
  asks : ∀ {r : Relay} {t : Task} {due left}, t.phase = k.pausing due left →
    r.move t = ({ r with remote := (k.ask r.remote).2 },
      .goesOn (k.asking (r.now + (k.ask r.remote).1.delay) left (k.ask r.remote).1.reply))
  /-- After a failure there is a pause, if an attempt is left. -/
  pauses : ∀ {r : Relay} {t : Task} {due left reply e},
    t.phase = k.asking due (left + 1) reply → reply.resolve (k.standing r.remote) = .error e →
    ∃ log, r.move t = ({ r with log }, .goesOn (k.pausing (r.now + r.retryDelay) left))
  /-- A success ends the sync, and so does the last attempt. -/
  ends : ∀ {r : Relay} {t : Task} {due left reply x}, t.purpose = k.purpose →
    r.syncing = k.flag → t.phase = k.asking due left reply →
    reply.resolve (k.standing r.remote) = x → (∃ a, x = .ok a) ∨ left = 0 →
    ∃ log, r.move t = ({ r with
      cache := k.cacheAfter t.slot r.cache x
      registry := k.registryAfter r.arrivals r.registry x
      syncing := false
      log }, .ends (x.map k.size))

/-- With its first move a task makes its first request. -/
def Begins (k : Inquiry α) (r : Relay) (t : Task) : Prop :=
  ∃ log, r.move t = ({ r with syncing := k.flag, remote := (k.ask r.remote).2, log },
    .goesOn (k.asking (r.now + (k.ask r.remote).1.delay) t.retries (k.ask r.remote).1.reply))

/-- Syncs of the slot map. -/
def validators : Inquiry (List Registration) where
  purpose := .validators
  asking := .asking
  pausing := .pausing
  plan := Remote.validatorPlan
  standing := Remote.validators
  ask := Remote.askValidators
  flag := true
  cache slot rs _ := ⟨SlotMap.ofRegistrations rs, some slot⟩
  registry _ _ g := g
  size rs := (SlotMap.ofRegistrations rs).size

/-- Syncs of the lists with these names. -/
def lists (names : List String) : Inquiry NamedLists where
  purpose := .lists
  asking := .askingLists names
  pausing := .pausingLists names
  plan := Remote.listPlan
  standing := fun remote => remote.listsNamed names
  ask := fun remote => remote.askLists names
  flag := false
  cache _ _ c := c
  registry times lists g := g.update times lists
  size lists := lists.size

end Inquiry

/-- Nothing follows a sync of the slot map that was asked for. -/
theorem endValidators_of_asked (r : Relay) {t : Task} (kind : t.purpose = .validators)
    (o : Outcome) : ∃ log, r.endValidators t o = ({ r with log }, .ends o) := by
  have hno : t.goesOnToLists o = false := by
    unfold Task.goesOnToLists
    rw [kind]
  obtain ⟨log, hends⟩ := endValidators_eq r t o
  rw [hno, if_neg (fun h => Bool.false_ne_true h.2)] at hends
  exact ⟨log, hends⟩

theorem lawful_validators : Inquiry.validators.Lawful where
  due_asking _ _ _ := rfl
  due_pausing _ _ := rfl
  ask_plan {remote p ps} h := by
    have hplan : remote.validatorPlan = p :: ps := h
    simp [Inquiry.validators, Remote.askValidators, Remote.next, hplan]
  standing_ask _ := rfl
  asks pauses := by
    rw [move_of_pausing pauses]
    rfl
  pauses {r t due left reply e} asks answer := by
    have hanswer : reply.resolve r.remote.validators = .error e := answer
    rw [move_of_asking asks, hanswer]
    exact ⟨_, rfl⟩
  ends {r t due left reply x} kind _ asks answer last := by
    have hanswer : reply.resolve r.remote.validators = x := answer
    rw [move_of_asking asks, hanswer]
    cases x with
    | ok rs =>
      obtain ⟨log, hlog⟩ := noteMalformed_eq r rs
      unfold takeValidators
      simp only [hlog]
      exact endValidators_of_asked _ kind _
    | error e =>
      obtain rfl : left = 0 := last.resolve_left nofun
      exact endValidators_of_asked _ kind _

theorem lawful_lists (names : List String) : (Inquiry.lists names).Lawful where
  due_asking _ _ _ := rfl
  due_pausing _ _ := rfl
  ask_plan {remote p ps} h := by
    have hplan : remote.listPlan = p :: ps := h
    simp [Inquiry.lists, Remote.askLists, Remote.next, hplan]
  standing_ask _ := rfl
  asks pauses := by
    rw [move_of_pausingLists pauses]
    rfl
  pauses {r t due left reply e} asks answer := by
    have hanswer : reply.resolve (r.remote.listsNamed names) = .error e := answer
    rw [move_of_askingLists asks, hanswer]
    exact ⟨_, rfl⟩
  ends {r t due left reply x} _ down asks answer last := by
    have hanswer : reply.resolve (r.remote.listsNamed names) = x := answer
    have hdown : r.syncing = false := down
    rw [move_of_askingLists asks, hanswer, ← hdown]
    cases x with
    | ok lists => exact endLists_eq _ t _
    | error e =>
      obtain rfl : left = 0 := last.resolve_left nofun
      exact endLists_eq _ t _

/-! ### The attempts -/

/-- Of some requests `q` decides: those before it fail, and it succeeds or is the last. -/
structure Decides (standing : α) (before : List (Planned α)) (q : Planned α)
    (after : List (Planned α)) : Prop where
  vain : ∀ p ∈ before, ∃ e, p.reply.resolve standing = .error e
  last : (∃ x, q.reply.resolve standing = .ok x) ∨ after = []

/-- One of the requests decides. -/
theorem exists_decides (standing : α) {ps : List (Planned α)} (h : ps ≠ []) :
    ∃ before q after, ps = before ++ q :: after ∧ Decides standing before q after := by
  induction ps with
  | nil => exact absurd rfl h
  | cons p ps ih =>
    by_cases hps : ps = []
    · exact ⟨[], p, ps, rfl, nofun, Or.inr hps⟩
    · cases hanswer : p.reply.resolve standing with
      | ok x => exact ⟨[], p, ps, rfl, nofun, Or.inl ⟨x, hanswer⟩⟩
      | error e =>
        obtain ⟨before, q, after, hsplit, hvain, hlast⟩ := ih hps
        refine ⟨p :: before, q, after, by rw [hsplit]; rfl, ?_, hlast⟩
        intro u hu
        rcases List.mem_cons.mp hu with rfl | hu
        · exact ⟨e, hanswer⟩
        · exact hvain u hu

/-- How long it takes from one request to the next, `ms` milliseconds of pause included. -/
def spanBefore (ms : Nat) (before : List (Planned α)) : Nat :=
  (before.map fun p => p.delay + ms).sum

namespace Inquiry

variable {k : Inquiry α}

/-- The answers that the other side has ready come next. -/
theorem Lawful.ahead_eq (law : k.Lawful) {ps later : List (Planned α)} {remote : Remote}
    (plan : k.plan remote = ps ++ later) : k.ahead ps.length remote = ps := by
  induction ps generalizing remote with
  | nil => rfl
  | cons p ps ih =>
    obtain ⟨hfirst, hrest⟩ := law.ask_plan plan
    show (k.ask remote).1 :: k.ahead ps.length (k.ask remote).2 = p :: ps
    rw [hfirst, ih hrest]

/-- After a failure the next request follows, with a pause before it, if an attempt is left. -/
theorem Lawful.await_failing (law : k.Lawful) {r : Relay} {t : Task} {left ms : Nat}
    {reply : Reply α} {e : RelayError} (alone : r.tasks = [t])
    (undone : r.outcome? t.id = none) (asking : t.phase = k.asking (r.now + ms) (left + 1) reply)
    (fails : reply.resolve (k.standing r.remote) = .error e) :
    ∃ log, r.await t.id = ({ r with
      remote := (k.ask r.remote).2
      now := r.now + ms + r.retryDelay
      tasks := [{ t with
        phase := k.asking (r.now + ms + r.retryDelay + (k.ask r.remote).1.delay) left
          (k.ask r.remote).1.reply }]
      log } : Relay).await t.id := by
  have hwait : r.waitUntil t.phase.due = { r with now := r.now + ms } := by
    rw [asking, law.due_asking, waitUntil_later]
  obtain ⟨log, hpauses⟩ := law.pauses (r := { r with now := r.now + ms }) asking fails
  rw [await_of_goesOn alone undone hwait hpauses]
  let u : Task := { t with phase := k.pausing (r.now + ms + r.retryDelay) left }
  let s : Relay := { r with now := r.now + ms, tasks := [u], log }
  have hpause : s.waitUntil u.phase.due = { s with now := s.now + r.retryDelay } := by
    rw [law.due_pausing]
    exact waitUntil_later s r.retryDelay
  exact ⟨log, await_of_goesOn (r := s) (t := u) rfl undone hpause (law.asks rfl)⟩

/-- **From its first request on, a sync ends as the deciding request has it.** -/
theorem Lawful.await_asking (law : k.Lawful) {before after : List (Planned α)} {p q : Planned α}
    {r : Relay} {t : Task} {left : Nat} (alone : r.tasks = [t])
    (undone : r.outcome? t.id = none) (kind : t.purpose = k.purpose) (flag : r.syncing = k.flag)
    (asking : t.phase = k.asking (r.now + p.delay) left p.reply)
    (split : p :: k.ahead left r.remote = before ++ q :: after)
    (decides : Decides (k.standing r.remote) before q after) :
    ∃ log, r.await t.id = { r with
      cache := k.cacheAfter t.slot r.cache (q.reply.resolve (k.standing r.remote))
      registry := k.registryAfter (r.clock (r.now + spanBefore r.retryDelay before + q.delay))
        r.registry (q.reply.resolve (k.standing r.remote))
      syncing := false
      remote := k.asked before.length r.remote
      now := r.now + spanBefore r.retryDelay before + q.delay
      tasks := []
      outcomes := (t.id, (q.reply.resolve (k.standing r.remote)).map k.size) :: r.outcomes
      log } := by
  induction before generalizing p r t left with
  | nil =>
    cases split
    have hwait : r.waitUntil t.phase.due = { r with now := r.now + q.delay } := by
      rw [asking, law.due_asking, waitUntil_later]
    have hlast : (∃ x, q.reply.resolve (k.standing r.remote) = .ok x) ∨ left = 0 := by
      refine decides.last.imp_right fun hnone => ?_
      cases left with
      | zero => rfl
      | succ n => cases hnone
    obtain ⟨log, hends⟩ := law.ends (r := { r with now := r.now + q.delay }) kind flag asking
      rfl hlast
    exact ⟨log, await_of_ends alone undone hwait hends⟩
  | cons u before ih =>
    obtain ⟨rfl, hahead⟩ := List.cons.inj split
    obtain ⟨e, hfails⟩ := decides.vain p List.mem_cons_self
    cases left with
    | zero =>
      have hlength := congrArg List.length hahead
      simp [ahead] at hlength
    | succ n =>
      obtain ⟨log, hnext⟩ := law.await_failing alone undone asking hfails
      have hrest : Decides (k.standing (k.ask r.remote).2) before q after := by
        rw [law.standing_ask]
        exact ⟨fun v hv => decides.vain v (List.mem_cons_of_mem _ hv), decides.last⟩
      have hspan : r.now + p.delay + r.retryDelay + spanBefore r.retryDelay before
          = r.now + spanBefore r.retryDelay (p :: before) := by
        unfold spanBefore
        rw [List.map_cons, List.sum_cons]
        omega
      obtain ⟨log', hend⟩ := ih (p := (k.ask r.remote).1) (r := { r with
        remote := (k.ask r.remote).2
        now := r.now + p.delay + r.retryDelay
        tasks := [{ t with
          phase := k.asking (r.now + p.delay + r.retryDelay + (k.ask r.remote).1.delay) n
            (k.ask r.remote).1.reply }]
        log }) rfl undone kind flag rfl hahead hrest
      refine ⟨log', hnext.trans (hend.trans ?_)⟩
      simp only [law.standing_ask, hspan]
      rfl

/-- **Somebody who asks for a sync, and waits for it alone, gets what the deciding request
brings.** -/
theorem Lawful.perform (law : k.Lawful) {before after : List (Planned α)} {q : Planned α}
    {r : Relay} {slot : UInt64} {retries : Nat} (sound : Sound r) (alone : r.tasks = [])
    (begins : k.Begins (r.begin true k.purpose slot retries)
      { id := r.nextId, purpose := k.purpose, slot, retries })
    (split : k.ahead (retries + 1) r.remote = before ++ q :: after)
    (decides : Decides (k.standing r.remote) before q after) :
    ∃ log, r.perform k.purpose slot retries =
      (some ((q.reply.resolve (k.standing r.remote)).map k.size), { r with
        cache := k.cacheAfter slot r.cache (q.reply.resolve (k.standing r.remote))
        registry := k.registryAfter (r.clock (r.now + spanBefore r.retryDelay before + q.delay))
          r.registry (q.reply.resolve (k.standing r.remote))
        syncing := false
        remote := k.asked (before.length + 1) r.remote
        now := r.now + spanBefore r.retryDelay before + q.delay
        tasks := []
        outcomes := (r.nextId, (q.reply.resolve (k.standing r.remote)).map k.size) :: r.outcomes
        nextId := r.nextId + 1
        log }) := by
  let t : Task := { id := r.nextId, purpose := k.purpose, slot, retries }
  let s := r.begin true k.purpose slot retries
  have hwait : s.waitUntil t.phase.due = s := waitUntil_of_le (Nat.zero_le _)
  obtain ⟨log, hbegins⟩ := begins
  have hfirst := await_of_goesOn (begin_tasks alone k.purpose slot retries)
    sound.outcome?_nextId hwait hbegins
  have hrest : Decides (k.standing (k.ask r.remote).2) before q after := by
    rw [law.standing_ask]
    exact decides
  obtain ⟨log', hend⟩ := law.await_asking (p := (k.ask r.remote).1) (r := { s with
    syncing := k.flag
    remote := (k.ask r.remote).2
    tasks := [{ t with
      phase := k.asking (r.now + (k.ask r.remote).1.delay) retries (k.ask r.remote).1.reply }]
    log }) rfl sound.outcome?_nextId rfl rfl rfl split hrest
  rw [law.standing_ask] at hend
  exact ⟨log', perform_of_await (hfirst.trans hend) rfl⟩

end Inquiry

/-! ### How a sync begins -/

theorem begins_validators {r : Relay} {t : Task} (down : r.syncing = false)
    (waits : t.phase = .waiting) (kind : t.purpose = .validators) :
    Inquiry.validators.Begins r t := by
  have hkind : t.purpose ≠ .lists := by
    rw [kind]
    nofun
  unfold Inquiry.Begins
  rw [move_of_waiting waits hkind]
  unfold beginValidators
  rw [if_neg (Bool.eq_false_iff.mp down)]
  exact ⟨_, rfl⟩

theorem begins_lists {r : Relay} {t : Task} (down : r.syncing = false)
    (waits : t.phase = .waiting) (kind : t.purpose = .lists)
    (named : SlotMap.listNames r.cache.slots ≠ []) :
    (Inquiry.lists (SlotMap.listNames r.cache.slots)).Begins r t := by
  obtain ⟨log, hbegins⟩ := beginLists_eq r t
  rw [if_neg named] at hbegins
  have hflag : (Inquiry.lists (SlotMap.listNames r.cache.slots)).flag = r.syncing := down.symm
  unfold Inquiry.Begins
  rw [move_of_waiting_lists waits kind, hbegins, hflag]
  exact ⟨log, rfl⟩

/-- Where no list is named, a sync of the lists is over at once. -/
theorem perform_lists_of_unnamed {r : Relay} (sound : Sound r) (alone : r.tasks = [])
    (unnamed : SlotMap.listNames r.cache.slots = []) (slot : UInt64) (retries : Nat) :
    ∃ log, r.perform .lists slot retries = (some (.ok 0), { r with
      tasks := []
      outcomes := (r.nextId, .ok 0) :: r.outcomes
      nextId := r.nextId + 1
      log }) := by
  let t : Task := { id := r.nextId, purpose := .lists, slot, retries }
  let s := r.begin true .lists slot retries
  have hwait : s.waitUntil t.phase.due = s := waitUntil_of_le (Nat.zero_le _)
  obtain ⟨log, hbegins⟩ := beginLists_eq s t
  have hunnamed : SlotMap.listNames s.cache.slots = [] := unnamed
  rw [if_pos hunnamed] at hbegins
  have hmove := (move_of_waiting_lists (r := s) (t := t) rfl rfl).trans hbegins
  have hends := await_of_ends (begin_tasks alone .lists slot retries) sound.outcome?_nextId
    hwait hmove
  exact ⟨log, perform_of_await hends rfl⟩

end Relay

end ProposerBook
