/-
How often a sync asks.

A sync that may try again `retries` times makes its requests one after the other, each after the
answer to the one before it and a pause.  The first success ends it, and so does the failure that
comes when no attempt is left; so it hears failures, at most `retries` of them, and then the
answer that decides, and makes just as many requests as it hears answers.

`Pursuit` adds to an `Inquiry` what can be seen from outside: how many requests the other side has
had, and what a task hears with a move.  `Budget` says of the moves of a task, the first of which
makes the first request, that they keep to the account; it is shown by induction on the number of
attempts left, along the thread of the task (`Lawful.budget`).
-/
import ProposerBook.Proofs.Relay.Attempts
import ProposerBook.Proofs.Relay.Lists
import ProposerBook.Proofs.Relay.Punctual

namespace ProposerBook

/-- With this move a sync of the slot map ends with `o`, which is what the answer makes of it, and
the flag goes down. -/
structure Moment.EndsValidators (m : Moment) (o : Outcome) : Prop where
  answer : ∃ due left reply, m.task.phase = .asking due left reply ∧
    o = (reply.resolve m.book.remote.validators).map fun rs => (SlotMap.ofRegistrations rs).size
  move : ∃ cache log, m.book.move m.task =
    ({ m.book with cache, syncing := false, log } : Relay).endValidators m.task o

/-- With this move a sync of the lists begins. -/
structure Moment.BeginsLists (m : Moment) : Prop where
  idle : m.task.phase.names? = none
  move : ∃ cache syncing log, m.book.move m.task =
    ({ m.book with cache, syncing, log } : Relay).beginLists m.task

/-- The lists that proposers name after this move. -/
def Moment.names (m : Moment) : List String := SlotMap.listNames m.after.cache.slots

namespace Relay

variable {α : Type}

/-! ### Seen from outside -/

/-- A kind of sync, with what can be seen of it. -/
structure Pursuit (α : Type) extends Inquiry α where
  /-- How many requests the other side has had. -/
  made : Remote → Nat
  /-- What a task waits for, and how many attempts are left. -/
  awaits? : Phase → Option (Nat × Reply α)
  /-- Where a sync of this kind does not come any more. -/
  Over : Phase → Prop
  /-- With this move the sync ends so. -/
  Returns : Moment → Outcome → Prop

namespace Pursuit

/-- How long the request takes that is made with a move, if one is made. -/
def delay? (k : Pursuit α) (m : Moment) : Option Nat :=
  if k.made m.after.remote = k.made m.book.remote then none else some (k.ask m.book.remote).1.delay

/-- The answer that a task hears with a move, if it hears one, and how many attempts are left. -/
def hears? (k : Pursuit α) (m : Moment) : Option (Nat × Except RelayError α) :=
  (k.awaits? m.task.phase).map fun x => (x.1, x.2.resolve (k.standing m.book.remote))

/-- The requests that are made, each as long as it takes. -/
def delays (k : Pursuit α) (ms : List Moment) : List Nat := ms.filterMap k.delay?

def heard (k : Pursuit α) (ms : List Moment) : List (Nat × Except RelayError α) :=
  ms.filterMap k.hears?

/-- The answers that a task hears. -/
def answers (k : Pursuit α) (ms : List Moment) : List (Except RelayError α) :=
  (k.heard ms).map Prod.snd

/-- How many attempts are left at each of them. -/
def counters (k : Pursuit α) (ms : List Moment) : List Nat := (k.heard ms).map Prod.fst

/-- The task is in a sync of this kind. -/
def Busy (k : Pursuit α) (phase : Phase) : Prop :=
  (∃ due left reply, phase = k.asking due left reply) ∨ ∃ due left, phase = k.pausing due left

/-- From this move on there is no request and no answer. -/
def Quits (k : Pursuit α) (m : Moment) : Prop :=
  k.made m.after.remote = k.made m.book.remote ∧
    ∀ phase, m.progress = .goesOn phase → k.Over phase

/-- Where a request leads a task that makes it with `m`. -/
def request (k : Pursuit α) (m : Moment) (left : Nat) : Phase :=
  k.asking (m.book.now + (k.ask m.book.remote).1.delay) left (k.ask m.book.remote).1.reply

/-- With its move a task makes a request, and has `left` attempts after it. -/
structure Asks (k : Pursuit α) (m : Moment) (left : Nat) : Prop where
  idle : k.awaits? m.task.phase = none
  remote : m.after.remote = (k.ask m.book.remote).2
  goesOn : m.progress = .goesOn (k.request m left)
  cache : k.flag = true → m.after.cache = m.book.cache

/-- How a sync of this kind goes on, seen from outside. -/
structure Lawful (k : Pursuit α) : Prop extends k.toInquiry.Lawful where
  made_ask : ∀ remote, k.made (k.ask remote).2 = k.made remote + 1
  asking_ne : ∀ due left reply, k.asking due left reply ≠ .waiting
  pausing_ne : ∀ due left, k.pausing due left ≠ .waiting
  awaits_asking : ∀ due left reply, k.awaits? (k.asking due left reply) = some (left, reply)
  awaits_pausing : ∀ due left, k.awaits? (k.pausing due left) = none
  syncs_asking : ∀ due left reply, (k.asking due left reply).syncs = k.flag
  syncs_pausing : ∀ due left, (k.pausing due left).syncs = k.flag
  concludes : ∀ {m : Moment} {due left reply}, m.task.phase = k.asking due left reply →
    (∃ a, reply.resolve (k.standing m.book.remote) = .ok a) ∨ left = 0 →
    k.Returns m ((reply.resolve (k.standing m.book.remote)).map k.size) ∧ k.Quits m
  overs : ∀ {m : Moment}, k.Over m.task.phase → k.awaits? m.task.phase = none ∧ k.Quits m

/-! ### The account -/

/-- A sync that begins with `m`, and hears the answer that decides with `last`. -/
structure Decided (k : Pursuit α) (retries : Nat) (m : Moment) (us : List Moment) (last : Moment)
    (errors : List RelayError) (x : Except RelayError α) : Prop where
  within : errors.length ≤ retries
  decides : (∃ a, x = .ok a) ∨ errors.length = retries
  answers : k.answers (m :: (us ++ [last])) = errors.map .error ++ [x]
  hears : ∃ left, k.hears? last = some (left, x)
  counters : ∀ i left, (k.counters (m :: (us ++ [last])))[i]? = some left → i + left = retries
  requests : (k.delays (m :: us)).length = errors.length + 1
  busy : ∀ u ∈ m :: us, ∃ phase, u.progress = .goesOn phase ∧ k.Busy phase
  returns : k.Returns last (x.map k.size)
  held : k.flag = true → last.book.cache = m.book.cache
  time : (∀ u ∈ us ++ [last], u.Prompt) → last.book.now
    = m.book.now + (k.delays (m :: us)).sum + errors.length * m.book.retryDelay

/-- A sync that begins with `m`, and has not heard the answer that decides. -/
structure Pending (k : Pursuit α) (retries : Nat) (m : Moment) (ms : List Moment)
    (errors : List RelayError) : Prop where
  within : errors.length ≤ retries
  answers : k.answers (m :: ms) = errors.map .error
  counters : ∀ i left, (k.counters (m :: ms))[i]? = some left → i + left = retries
  requests : (k.delays (m :: ms)).length ≤ errors.length + 1
  busy : ∀ u ∈ m :: ms, ∃ phase, u.progress = .goesOn phase ∧ k.Busy phase

/-- **What a sync has asked and heard**, where `m` and `ms` are the moves of its task from the first
request on. -/
inductive Budget (k : Pursuit α) (retries : Nat) (m : Moment) : List Moment → Prop
  | decided {us after : List Moment} {last : Moment} {errors : List RelayError}
      {x : Except RelayError α} (decided : k.Decided retries m us last errors x)
      (quiet : k.delays (last :: after) = [] ∧ k.answers after = []) :
      Budget k retries m (us ++ last :: after)
  | pending {ms : List Moment} {errors : List RelayError}
      (pending : k.Pending retries m ms errors) : Budget k retries m ms

variable {k : Pursuit α} {m v w : Moment} {ms us after : List Moment} {retries left : Nat}

theorem delay?_eq_none (h : k.made m.after.remote = k.made m.book.remote) : k.delay? m = none :=
  if_pos h

theorem delays_cons_of_none (h : k.delay? m = none) : k.delays (m :: ms) = k.delays ms :=
  List.filterMap_cons_none h

theorem delays_cons_of_some {d : Nat} (h : k.delay? m = some d) :
    k.delays (m :: ms) = d :: k.delays ms :=
  List.filterMap_cons_some h

theorem heard_cons_of_none (h : k.awaits? m.task.phase = none) :
    k.heard (m :: ms) = k.heard ms := by
  refine List.filterMap_cons_none ?_
  unfold hears?
  rw [h]
  rfl

theorem Lawful.delay?_of_asks (law : k.Lawful) (h : k.Asks m left) :
    k.delay? m = some (k.ask m.book.remote).1.delay := by
  refine if_neg ?_
  rw [h.remote, law.made_ask]
  exact Nat.succ_ne_self _

/-- Where it is over nothing more is asked or heard. -/
theorem Lawful.quiet_of_over (law : k.Lawful) {r : Relay} {t : Task} (thread : Thread r t ms)
    (ended : k.Over t.phase) : k.delays ms = [] ∧ k.heard ms = [] := by
  induction ms generalizing r t with
  | nil => exact ⟨rfl, rfl⟩
  | cons m ms ih =>
    obtain ⟨rfl, -, hnext⟩ := thread.uncons
    obtain ⟨hidle, hmade, hover⟩ := law.overs ended
    rw [delays_cons_of_none (delay?_eq_none hmade), heard_cons_of_none hidle]
    rcases hnext with ⟨o, -, rfl⟩ | ⟨phase, hp, hrest⟩
    · exact ⟨rfl, rfl⟩
    · exact ih hrest (hover phase hp)

/-- After it has quit nothing more is asked or heard. -/
theorem Lawful.quiet_of_quits (law : k.Lawful) {r : Relay} {t : Task}
    (thread : Thread r t (m :: ms)) (quits : k.Quits m) :
    k.delays (m :: ms) = [] ∧ k.answers ms = [] := by
  rw [delays_cons_of_none (delay?_eq_none quits.1)]
  obtain ⟨-, -, ⟨o, -, rfl⟩ | ⟨phase, hp, hrest⟩⟩ := thread.uncons
  · exact ⟨rfl, rfl⟩
  · obtain ⟨hdelays, hheard⟩ := law.quiet_of_over hrest (quits.2 phase hp)
    exact ⟨hdelays, by unfold answers; rw [hheard]; rfl⟩

/-! ### One attempt more -/

/-- With `m` a request is made, with `v` it fails, and with `w` the pause after it is over, and
`left` attempts are left. -/
structure Again (k : Pursuit α) (left : Nat) (m v w : Moment) (e : RelayError) : Prop where
  asks : k.Asks m (left + 1)
  idle : k.delay? v = none
  fails : k.hears? v = some (left + 1, .error e)
  pauses : ∃ phase, v.progress = .goesOn phase ∧ k.Busy phase
  cache : k.flag = true → w.book.cache = m.book.cache
  retryDelay : w.book.retryDelay = m.book.retryDelay
  time : v.Prompt → w.Prompt →
    w.book.now = m.book.now + (k.ask m.book.remote).1.delay + m.book.retryDelay

variable {e : RelayError}

theorem Asks.busy (h : k.Asks m left) : ∃ phase, m.progress = .goesOn phase ∧ k.Busy phase :=
  ⟨_, h.goesOn, Or.inl ⟨_, _, _, rfl⟩⟩

theorem Again.heard (h : k.Again left m v w e) (ms : List Moment) :
    k.heard (m :: v :: ms) = (left + 1, .error e) :: k.heard ms := by
  rw [heard_cons_of_none h.asks.idle]
  exact List.filterMap_cons_some h.fails

theorem Again.delays (h : k.Again left m v w e) (law : k.Lawful) (ms : List Moment) :
    k.delays (m :: v :: ms) = (k.ask m.book.remote).1.delay :: k.delays ms := by
  rw [delays_cons_of_some (law.delay?_of_asks h.asks), delays_cons_of_none h.idle]

theorem Again.counters (h : k.Again left m v w e) {ms : List Moment}
    (counters : ∀ i n, (k.counters ms)[i]? = some n → i + n = left) :
    ∀ i n, (k.counters (m :: v :: ms))[i]? = some n → i + n = left + 1 := by
  intro i n hn
  unfold Pursuit.counters at hn
  rw [h.heard, List.map_cons] at hn
  cases i with
  | zero =>
    obtain rfl : left + 1 = n := Option.some.inj hn
    exact Nat.zero_add _
  | succ i =>
    have hrest := counters i n hn
    omega

theorem Again.busy (h : k.Again left m v w e) {ms : List Moment}
    (busy : ∀ u ∈ ms, ∃ phase, u.progress = .goesOn phase ∧ k.Busy phase) :
    ∀ u ∈ m :: v :: ms, ∃ phase, u.progress = .goesOn phase ∧ k.Busy phase := by
  intro u hu
  rcases List.mem_cons.mp hu with rfl | hu
  · exact h.asks.busy
  · rcases List.mem_cons.mp hu with rfl | hu
    · exact h.pauses
    · exact busy u hu

theorem Again.decided (h : k.Again left m v w e) (law : k.Lawful) {last : Moment}
    {errors : List RelayError} {x : Except RelayError α}
    (decided : k.Decided left w us last errors x) :
    k.Decided (left + 1) m (v :: w :: us) last (e :: errors) x where
  within := Nat.succ_le_succ decided.within
  decides := decided.decides.imp_right (congrArg Nat.succ)
  answers := by
    unfold Pursuit.answers
    rw [List.cons_append, h.heard]
    exact congrArg (List.cons _) decided.answers
  hears := decided.hears
  counters := h.counters decided.counters
  requests := by
    rw [h.delays law]
    exact congrArg Nat.succ decided.requests
  busy := h.busy decided.busy
  returns := decided.returns
  held hflag := (decided.held hflag).trans (h.cache hflag)
  time hprompt := by
    have hv : v.Prompt := hprompt v List.mem_cons_self
    have hw : w.Prompt := hprompt w (List.mem_cons_of_mem _ List.mem_cons_self)
    have hrest := decided.time fun u hu =>
      hprompt u (List.mem_cons_of_mem _ (List.mem_cons_of_mem _ hu))
    rw [hrest, h.time hv hw, h.retryDelay, h.delays law, List.sum_cons, List.length_cons,
      Nat.succ_mul]
    omega

theorem Again.pending (h : k.Again left m v w e) (law : k.Lawful) {errors : List RelayError}
    (pending : k.Pending left w ms errors) :
    k.Pending (left + 1) m (v :: w :: ms) (e :: errors) where
  within := Nat.succ_le_succ pending.within
  answers := by
    unfold Pursuit.answers
    rw [h.heard]
    exact congrArg (List.cons _) pending.answers
  counters := h.counters pending.counters
  requests := by
    rw [h.delays law]
    exact Nat.succ_le_succ pending.requests
  busy := h.busy pending.busy

theorem Again.budget (h : k.Again left m v w e) (law : k.Lawful) (budget : k.Budget left w ms) :
    k.Budget (left + 1) m (v :: w :: ms) := by
  cases budget with
  | decided decided quiet => exact .decided (h.decided law decided) quiet
  | pending pending => exact .pending (h.pending law pending)

/-! ### All attempts -/

variable {r : Relay} {t : Task} {x : Except RelayError α}

/-- After a request its answer is awaited. -/
theorem Asks.next (asks : k.Asks m left) (thread : Thread r t (m :: ms)) :
    Thread m.after { m.task with phase := k.request m left } ms :=
  thread.next asks.goesOn

/-- With `v` the request that was made with `m` is answered. -/
structure Answers (k : Pursuit α) (left : Nat) (m v : Moment) (x : Except RelayError α) : Prop where
  asking : ∃ due reply, v.task.phase = k.asking due left reply ∧
    reply.resolve (k.standing v.book.remote) = x
  hears : k.hears? v = some (left, x)
  cache : k.flag = true → v.book.cache = m.book.cache
  retryDelay : v.book.retryDelay = m.book.retryDelay
  time : v.Prompt → v.book.now = m.book.now + (k.ask m.book.remote).1.delay

theorem Answers.heard (h : k.Answers left m v x) (asks : k.Asks m left) (ms : List Moment) :
    k.heard (m :: v :: ms) = (left, x) :: k.heard ms := by
  rw [heard_cons_of_none asks.idle]
  exact List.filterMap_cons_some h.hears

/-- At the first answer all attempts but one are left. -/
theorem Answers.counters (h : k.Answers left m v x) (asks : k.Asks m left) :
    ∀ i n, (k.counters [m, v])[i]? = some n → i + n = left := by
  intro i n hn
  unfold Pursuit.counters at hn
  rw [h.heard asks, List.map_cons] at hn
  cases i with
  | zero =>
    obtain rfl : left = n := Option.some.inj hn
    exact Nat.zero_add _
  | succ i => cases hn

theorem Lawful.exists_answers (law : k.Lawful) (asks : k.Asks m left)
    (thread : Thread r t (m :: v :: ms)) : ∃ x, k.Answers left m v x := by
  obtain ⟨htask, hsince, -⟩ := (asks.next thread).uncons
  have hphase : v.task.phase = k.request m left := by rw [htask]
  unfold request at hphase
  refine ⟨_, ⟨_, _, hphase, rfl⟩, ?_, ?_, ?_, ?_⟩
  · unfold hears?
    rw [hphase, law.awaits_asking]
    rfl
  · intro hflag
    have hsyncs : v.task.syncs = true := by
      unfold Task.syncs
      rw [hphase, law.syncs_asking, hflag]
    rw [← htask] at hsince
    rw [hsince.cache hsyncs, asks.cache hflag]
  · exact hsince.retryDelay.trans (move_settings _ _).2.1
  · intro hprompt
    have hdue := hprompt.resolve_left (by rw [hphase]; exact law.asking_ne _ _ _)
    rw [hdue, hphase, law.due_asking]

/-- The first answer decides. -/
theorem Lawful.decided (law : k.Lawful) (asks : k.Asks m left)
    (thread : Thread r t (m :: v :: ms)) (answers : k.Answers left m v x)
    (decides : (∃ a, x = .ok a) ∨ left = 0) : k.Budget left m (v :: ms) := by
  obtain ⟨due, reply, hphase, rfl⟩ := answers.asking
  obtain ⟨hreturns, hquits⟩ := law.concludes hphase decides
  have hdecided : k.Decided left m [] v [] (reply.resolve (k.standing v.book.remote)) := by
    refine ⟨Nat.zero_le _, decides.imp_right Eq.symm, ?_, ⟨left, answers.hears⟩,
      answers.counters asks, ?_, ?_, hreturns, answers.cache, ?_⟩
    · exact congrArg (List.map Prod.snd) (answers.heard asks [])
    · rw [delays_cons_of_some (law.delay?_of_asks asks)]
      rfl
    · intro u hu
      rw [List.mem_singleton.mp hu]
      exact asks.busy
    · intro hprompt
      rw [answers.time (hprompt v List.mem_cons_self),
        delays_cons_of_some (law.delay?_of_asks asks), List.sum_cons, List.length_nil, Nat.zero_mul]
      rfl
  exact .decided hdecided (law.quiet_of_quits (asks.next thread) hquits)

/-- No answer has come. -/
theorem Lawful.pending (law : k.Lawful) (asks : k.Asks m left) : k.Budget left m [] := by
  have hheard : k.heard [m] = [] := heard_cons_of_none asks.idle
  have hpending : k.Pending left m [] [] := by
    refine ⟨Nat.zero_le _, ?_, ?_, ?_, ?_⟩
    · exact congrArg (List.map Prod.snd) hheard
    · intro i n hn
      unfold counters at hn
      rw [hheard] at hn
      cases hn
    · rw [delays_cons_of_some (law.delay?_of_asks asks)]
      exact Nat.le_refl _
    · intro u hu
      rw [List.mem_singleton.mp hu]
      exact asks.busy
  exact .pending hpending

/-- Where a failure leads that is not the last. -/
theorem Lawful.move_of_fails (law : k.Lawful) (answers : k.Answers (left + 1) m v (.error e)) :
    ∃ log, v.after = { v.book with log } ∧
      v.progress = .goesOn (k.pausing (v.book.now + v.book.retryDelay) left) := by
  obtain ⟨due, reply, hphase, hfails⟩ := answers.asking
  obtain ⟨log, hmove⟩ := law.pauses (r := v.book) hphase hfails
  exact ⟨log, congrArg Prod.fst hmove, congrArg Prod.snd hmove⟩

/-- One failure is heard, and no more has happened. -/
theorem Lawful.pending_failed (law : k.Lawful) (asks : k.Asks m (left + 1))
    (answers : k.Answers (left + 1) m v (.error e)) : k.Budget (left + 1) m [v] := by
  obtain ⟨log, hafter, hgoes⟩ := law.move_of_fails answers
  have hidle : k.delay? v = none := delay?_eq_none (by rw [hafter])
  have hpending : k.Pending (left + 1) m [v] [e] := by
    refine ⟨Nat.succ_le_succ (Nat.zero_le _), ?_, answers.counters asks, ?_, ?_⟩
    · exact congrArg (List.map Prod.snd) (answers.heard asks [])
    · rw [delays_cons_of_some (law.delay?_of_asks asks), delays_cons_of_none hidle]
      exact Nat.le_succ _
    · intro u hu
      rcases List.mem_cons.mp hu with rfl | hu
      · exact asks.busy
      · rw [List.mem_singleton.mp hu]
        exact ⟨_, hgoes, Or.inr ⟨_, _, rfl⟩⟩
  exact .pending hpending

/-- After a failure that is not the last comes a pause, and then the next request. -/
theorem Lawful.again (law : k.Lawful) (asks : k.Asks m (left + 1))
    (thread : Thread r t (m :: v :: w :: ms)) (answers : k.Answers (left + 1) m v (.error e)) :
    k.Again left m v w e ∧ k.Asks w left := by
  obtain ⟨log, hafter, hgoes⟩ := law.move_of_fails answers
  obtain ⟨htask, hsince, -⟩ := ((asks.next thread).next hgoes).uncons
  have hphase : w.task.phase = k.pausing (v.book.now + v.book.retryDelay) left := by rw [htask]
  have hasked := law.asks (r := w.book) hphase
  refine ⟨⟨asks, ?_, answers.hears, ⟨_, hgoes, Or.inr ⟨_, _, rfl⟩⟩, ?_, ?_, ?_⟩,
    ⟨?_, congrArg (fun x => x.1.remote) hasked, congrArg Prod.snd hasked,
      fun _ => congrArg (fun x => x.1.cache) hasked⟩⟩
  · exact delay?_eq_none (by rw [hafter])
  · intro hflag
    have hsyncs : w.task.syncs = true := by
      unfold Task.syncs
      rw [hphase, law.syncs_pausing, hflag]
    rw [← htask] at hsince
    rw [hsince.cache hsyncs, hafter, answers.cache hflag]
  · rw [hsince.retryDelay, hafter]
    exact answers.retryDelay
  · intro hv hw
    have hdue := hw.resolve_left (by rw [hphase]; exact law.pausing_ne _ _)
    rw [hdue, hphase, law.due_pausing, answers.time hv, answers.retryDelay]
  · rw [hphase, law.awaits_pausing]

/-- **From the first request on a sync keeps to the account.** -/
theorem Lawful.budget (law : k.Lawful) (thread : Thread r t (m :: ms)) (asks : k.Asks m left) :
    k.Budget left m ms := by
  -- With no attempt left after the request its answer decides, whatever it is.  Else it may be a
  -- failure, and two moves later one attempt less is left.
  induction left generalizing r t m ms with
  | zero =>
    cases ms with
    | nil => exact law.pending asks
    | cons v vs =>
      obtain ⟨x, hanswers⟩ := law.exists_answers asks thread
      exact law.decided asks thread hanswers (Or.inr rfl)
  | succ left ih =>
    cases ms with
    | nil => exact law.pending asks
    | cons v vs =>
      obtain ⟨x, hanswers⟩ := law.exists_answers asks thread
      cases x with
      | ok a => exact law.decided asks thread hanswers (Or.inl ⟨a, rfl⟩)
      | error e =>
        cases vs with
        | nil => exact law.pending_failed asks hanswers
        | cons w ws =>
          obtain ⟨hagain, hasks⟩ := law.again asks thread hanswers
          exact hagain.budget law (ih (thread.at [m, v]) hasks)

/-- What comes after the answer that decides does not count. -/
theorem Decided.total {last : Moment} {errors : List RelayError}
    (decided : k.Decided retries m us last errors x)
    (quiet : k.delays (last :: after) = [] ∧ k.answers after = []) :
    k.answers (m :: (us ++ last :: after)) = errors.map .error ++ [x] ∧
      (k.delays (m :: (us ++ last :: after))).length = errors.length + 1 := by
  have hheard : k.heard (m :: (us ++ last :: after))
      = k.heard (m :: (us ++ [last])) ++ k.heard after := by
    rw [List.append_cons us last after, ← List.cons_append]
    exact List.filterMap_append
  have hdelays : k.delays (m :: (us ++ last :: after))
      = k.delays (m :: us) ++ k.delays (last :: after) := by
    rw [← List.cons_append]
    exact List.filterMap_append
  refine ⟨?_, ?_⟩
  · have hnone := quiet.2
    unfold Pursuit.answers at hnone ⊢
    rw [hheard, List.map_append, hnone, List.append_nil]
    exact decided.answers
  · rw [hdelays, quiet.1, List.append_nil, decided.requests]

/-- However long a sync goes on, it makes no more requests than it may. -/
theorem Budget.delays_le (h : k.Budget retries m ms) :
    (k.delays (m :: ms)).length ≤ retries + 1 := by
  cases h with
  | decided decided quiet =>
    rw [(decided.total quiet).2]
    exact Nat.succ_le_succ decided.within
  | pending pending => exact Nat.le_trans pending.requests (Nat.succ_le_succ pending.within)

/-! ### The two kinds -/

/-- Syncs of the slot map. -/
def validators : Pursuit (List Registration) where
  toInquiry := .validators
  made := Remote.validatorCalls
  awaits?
    | .asking _ left reply => some (left, reply)
    | _ => none
  Over phase := phase.names?.isSome = true
  Returns := Moment.EndsValidators

/-- Syncs of the lists with these names. -/
def lists (names : List String) : Pursuit NamedLists where
  toInquiry := .lists names
  made remote := remote.listRequests.length
  awaits?
    | .askingLists _ _ left reply => some (left, reply)
    | _ => none
  Over _ := False
  Returns m o := m.progress = .ends o

end Pursuit

/-- Beginning with the lists is not asking for registrations. -/
theorem beginLists_quits (r : Relay) (t : Task) :
    (r.beginLists t).1.remote.validatorCalls = r.remote.validatorCalls ∧
      ∀ phase, (r.beginLists t).2 = .goesOn phase → phase.names?.isSome = true := by
  obtain ⟨log, hlog⟩ := beginLists_eq r t
  rw [hlog]
  split
  · exact ⟨rfl, nofun⟩
  · refine ⟨rfl, ?_⟩
    intro phase hp
    cases hp
    rfl

theorem endValidators_quits (r : Relay) (t : Task) (o : Outcome) :
    (r.endValidators t o).1.remote.validatorCalls = r.remote.validatorCalls ∧
      ∀ phase, (r.endValidators t o).2 = .goesOn phase → phase.names?.isSome = true := by
  obtain ⟨log, hlog⟩ := endValidators_eq r t o
  rw [hlog]
  split
  · exact beginLists_quits _ t
  · exact ⟨rfl, nofun⟩

/-- How a sync of the slot map ends. -/
theorem move_of_concluding {r : Relay} {t : Task} {due left : Nat}
    {reply : Reply (List Registration)} (asks : t.phase = .asking due left reply)
    (last : (∃ rs, reply.resolve r.remote.validators = .ok rs) ∨ left = 0) :
    ∃ cache log, r.move t = ({ r with cache, syncing := false, log } : Relay).endValidators t
      ((reply.resolve r.remote.validators).map fun rs => (SlotMap.ofRegistrations rs).size) := by
  rw [move_of_asking asks]
  cases hanswer : reply.resolve r.remote.validators with
  | ok rs =>
    obtain ⟨log, hlog⟩ := noteMalformed_eq r rs
    unfold takeValidators
    simp only [hlog]
    exact ⟨_, _, rfl⟩
  | error e =>
    obtain rfl : left = 0 := by
      refine last.resolve_left ?_
      rintro ⟨rs, hrs⟩
      rw [hanswer] at hrs
      cases hrs
    exact ⟨_, _, rfl⟩

/-- Who is after some lists stays after them, and does not ask for registrations. -/
theorem move_of_names {r : Relay} {t : Task} {names : List String}
    (h : t.phase.names? = some names) :
    (r.move t).1.remote.validatorCalls = r.remote.validatorCalls ∧
      ∀ phase, (r.move t).2 = .goesOn phase → phase.names? = some names := by
  cases hphase : t.phase with
  | askingLists _ due left reply =>
    rw [hphase] at h
    cases h
    rw [move_of_askingLists hphase]
    unfold takeLists
    split
    · obtain ⟨log, hlog⟩ := endLists_eq _ t _
      rw [hlog]
      exact ⟨rfl, nofun⟩
    · obtain ⟨log, hlog⟩ := endLists_eq _ t _
      rw [hlog]
      exact ⟨rfl, nofun⟩
    · refine ⟨rfl, ?_⟩
      intro phase hp
      cases hp
      rfl
  | pausingLists _ due left =>
    rw [hphase] at h
    cases h
    rw [move_of_pausingLists hphase]
    refine ⟨rfl, ?_⟩
    intro phase hp
    cases hp
    rfl
  | _ =>
    rw [hphase] at h
    cases h

/-- How a sync of the lists ends. -/
theorem move_of_concluding_lists {r : Relay} {t : Task} {names : List String} {due left : Nat}
    {reply : Reply NamedLists} (asks : t.phase = .askingLists names due left reply)
    (last : (∃ lists, reply.resolve (r.remote.listsNamed names) = .ok lists) ∨ left = 0) :
    (r.move t).1.remote = r.remote ∧
      (r.move t).2 = .ends ((reply.resolve (r.remote.listsNamed names)).map (·.size)) := by
  rw [move_of_askingLists asks]
  cases hanswer : reply.resolve (r.remote.listsNamed names) with
  | ok lists =>
    obtain ⟨log, hlog⟩ := endLists_eq _ t (.ok lists.size)
    unfold takeLists
    simp only
    rw [hlog]
    exact ⟨rfl, rfl⟩
  | error e =>
    obtain rfl : left = 0 := by
      refine last.resolve_left ?_
      rintro ⟨lists, hlists⟩
      rw [hanswer] at hlists
      cases hlists
    obtain ⟨log, hlog⟩ := endLists_eq _ t (.error e)
    unfold takeLists
    simp only
    rw [hlog]
    exact ⟨rfl, rfl⟩

namespace Pursuit

theorem lawful_validators : validators.Lawful where
  toLawful := Relay.lawful_validators
  made_ask _ := rfl
  asking_ne _ _ _ := nofun
  pausing_ne _ _ := nofun
  awaits_asking _ _ _ := rfl
  awaits_pausing _ _ := rfl
  syncs_asking _ _ _ := rfl
  syncs_pausing _ _ := rfl
  concludes {m due left reply} asks last := by
    obtain ⟨cache, log, hmove⟩ := move_of_concluding asks last
    refine ⟨⟨⟨due, left, reply, asks, rfl⟩, cache, log, hmove⟩, ?_⟩
    obtain ⟨hcalls, hover⟩ := endValidators_quits
      ({ m.book with cache, syncing := false, log } : Relay) m.task
      ((reply.resolve m.book.remote.validators).map fun rs => (SlotMap.ofRegistrations rs).size)
    rw [← hmove] at hcalls hover
    exact ⟨hcalls, hover⟩
  overs {m} hover := by
    obtain ⟨names, hnames⟩ := Option.isSome_iff_exists.mp hover
    obtain ⟨hcalls, hkeeps⟩ := move_of_names (r := m.book) hnames
    refine ⟨?_, hcalls, fun phase hp => Option.isSome_iff_exists.mpr ⟨names, hkeeps phase hp⟩⟩
    cases hphase : m.task.phase with
    | asking =>
      rw [hphase] at hnames
      cases hnames
    | _ => rfl

theorem lawful_lists (names : List String) : (lists names).Lawful where
  toLawful := Relay.lawful_lists names
  made_ask remote := by
    show (remote.listRequests ++ [names]).length = remote.listRequests.length + 1
    rw [List.length_append]
    rfl
  asking_ne _ _ _ := nofun
  pausing_ne _ _ := nofun
  awaits_asking _ _ _ := rfl
  awaits_pausing _ _ := rfl
  syncs_asking _ _ _ := rfl
  syncs_pausing _ _ := rfl
  concludes {m due left reply} asks last := by
    obtain ⟨hremote, hends⟩ := move_of_concluding_lists asks last
    refine ⟨hends, congrArg (fun x => x.listRequests.length) hremote, ?_⟩
    intro phase hp
    have hno : m.progress = .ends _ := hends
    rw [hno] at hp
    cases hp
  overs hover := hover.elim

/-! ### How they begin -/

/-- While the flag is down, who begins a sync of the slot map makes its first request. -/
theorem asks_validators {m : Moment} (waits : m.task.phase = .waiting)
    (kind : m.task.purpose ≠ .lists) (down : m.book.syncing = false) :
    validators.Asks m m.task.retries := by
  have hmove := move_of_waiting (r := m.book) waits kind
  unfold beginValidators at hmove
  rw [if_neg (Bool.eq_false_iff.mp down)] at hmove
  refine ⟨?_, congrArg (fun x => x.1.remote) hmove, congrArg Prod.snd hmove,
    fun _ => congrArg (fun x => x.1.cache) hmove⟩
  rw [waits]
  rfl

end Pursuit

end Relay

/-- Where a list is named its first request follows at once, and else there is nothing to do. -/
theorem Moment.BeginsLists.cases {m : Moment} (h : m.BeginsLists) :
    m.names = [] ∧ m.after.remote = m.book.remote ∧ m.progress = .ends (.ok 0) ∨
    m.names ≠ [] ∧ m.after.remote = (m.book.remote.askLists m.names).2 ∧
      m.progress = .goesOn ((Relay.Pursuit.lists m.names).request m m.task.retries) := by
  obtain ⟨-, cache, syncing, log, hmove⟩ := h
  obtain ⟨log', hbegins⟩ := Relay.beginLists_eq { m.book with cache, syncing, log } m.task
  rw [hbegins] at hmove
  unfold Moment.names Moment.after Moment.progress
  by_cases hnone : SlotMap.listNames cache.slots = []
  · rw [if_pos hnone] at hmove
    rw [hmove]
    exact Or.inl ⟨hnone, rfl, rfl⟩
  · rw [if_neg hnone] at hmove
    rw [hmove]
    exact Or.inr ⟨hnone, rfl, rfl⟩

namespace Relay.Pursuit

theorem asks_lists {m : Moment} (begins : m.BeginsLists) (named : m.names ≠ []) :
    (lists m.names).Asks m m.task.retries := by
  rcases begins.cases with ⟨hnone, -, -⟩ | ⟨-, hremote, hgoes⟩
  · exact absurd hnone named
  · refine ⟨?_, hremote, hgoes, nofun⟩
    cases hphase : m.task.phase with
    | askingLists =>
      have hidle := begins.idle
      rw [hphase] at hidle
      cases hidle
    | _ => rfl

end Relay.Pursuit

end ProposerBook
