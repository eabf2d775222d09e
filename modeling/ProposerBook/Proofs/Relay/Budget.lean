/-
From the first request to the last.

A task that begins with the slot map asks for registrations until one answer decides, unless the
flag is up.  Then it may turn to the lists, with an attempt for each that it had before; so it
makes `retries + 1` requests of each kind at most, four at the start and two for a lookup.
`Career` says so of all its moves, and is what every later result about a task starts from.

Who asks for a sync and waits for it is served before all others.  So the caller gets the answer
that decides, after the time that the requests and the pauses between them take, whoever else is
there.
-/
import ProposerBook.Proofs.Relay.Pursuit

namespace ProposerBook

/-! ### What a move asks for -/

/-- How often registrations are asked for with a move. -/
def Moment.calls (m : Moment) : Nat :=
  m.after.remote.validatorCalls - m.book.remote.validatorCalls

/-- The lists that are asked for with a move, request by request. -/
def Moment.listCalls (m : Moment) : List (List String) :=
  m.after.remote.listRequests.drop m.book.remote.listRequests.length

namespace Relay

open Pursuit

theorem beginLists_asks (r : Relay) (t : Task) : (r.beginLists t).1.remote = r.remote ∨
    ∃ names left, (r.beginLists t).1.remote = (r.remote.askLists names).2 ∧
      (r.beginLists t).2 = .goesOn ((lists names).request ⟨r, t⟩ left) := by
  obtain ⟨log, hlog⟩ := beginLists_eq r t
  rw [hlog]
  split
  · exact Or.inl rfl
  · exact Or.inr ⟨_, _, rfl, rfl⟩

theorem endValidators_asks (r : Relay) (t : Task) (o : Outcome) :
    (r.endValidators t o).1.remote = r.remote ∨
    ∃ names left, (r.endValidators t o).1.remote = (r.remote.askLists names).2 ∧
      (r.endValidators t o).2 = .goesOn ((lists names).request ⟨r, t⟩ left) := by
  obtain ⟨log, hlog⟩ := endValidators_eq r t o
  rw [hlog]
  split
  · exact beginLists_asks { r with log } t
  · exact Or.inl rfl

/-- **With a move at most one request is made**, and then its answer is awaited. -/
theorem move_asks (m : Moment) : m.after.remote = m.book.remote ∨
    (∃ left, m.after.remote = m.book.remote.askValidators.2 ∧
      m.progress = .goesOn (validators.request m left)) ∨
    ∃ names left, m.after.remote = (m.book.remote.askLists names).2 ∧
      m.progress = .goesOn ((lists names).request m left) := by
  obtain ⟨r, t⟩ := m
  have hturn := turn_move r t
  unfold Moment.after Moment.progress
  dsimp only
  generalize r.move t = x at hturn ⊢
  cases hturn with
  | refused => exact (endValidators_asks r t _).imp_right Or.inr
  | begins => exact Or.inr (Or.inl ⟨_, rfl, rfl⟩)
  | asksAgain => exact Or.inr (Or.inl ⟨_, rfl, rfl⟩)
  | succeeds log rs => exact (endValidators_asks _ t _).imp_right Or.inr
  | fails log e => exact (endValidators_asks _ t _).imp_right Or.inr
  | pauses => exact Or.inl rfl
  | beginsLists => exact (beginLists_asks r t).imp_right Or.inr
  | asksListsAgain => exact Or.inr (Or.inr ⟨_, _, rfl, rfl⟩)
  | listsSucceed log lists =>
    obtain ⟨log', hends⟩ := endLists_eq
      { r with registry := r.registry.update r.arrivals lists, log } t (.ok lists.size)
    rw [hends]
    exact Or.inl rfl
  | listsFail log e =>
    obtain ⟨log', hends⟩ := endLists_eq { r with log } t (.error e)
    rw [hends]
    exact Or.inl rfl
  | listsPause => exact Or.inl rfl

theorem calls_of_same {m : Moment} (h : m.after.remote = m.book.remote) :
    m.calls = 0 ∧ m.listCalls = [] := by
  unfold Moment.calls Moment.listCalls
  rw [h, Nat.sub_self, List.drop_length]
  exact ⟨rfl, rfl⟩

theorem same_of_refused {m : Moment} {o : Outcome}
    (h : ∃ log, m.book.move m.task = ({ m.book with log }, .ends o)) :
    m.after.remote = m.book.remote := by
  obtain ⟨log, hmove⟩ := h
  exact congrArg (fun x => x.1.remote) hmove

theorem calls_of_askValidators {m : Moment}
    (h : m.after.remote = m.book.remote.askValidators.2) : m.calls = 1 ∧ m.listCalls = [] := by
  have hcalls : m.after.remote.validatorCalls = m.book.remote.validatorCalls + 1 := by
    rw [h]
    rfl
  have hlists : m.after.remote.listRequests = m.book.remote.listRequests := by
    rw [h]
    rfl
  unfold Moment.calls Moment.listCalls
  rw [hcalls, hlists, Nat.add_sub_cancel_left, List.drop_length]
  exact ⟨rfl, rfl⟩

theorem calls_of_askLists {m : Moment} {names : List String}
    (h : m.after.remote = (m.book.remote.askLists names).2) :
    m.calls = 0 ∧ m.listCalls = [names] := by
  have hcalls : m.after.remote.validatorCalls = m.book.remote.validatorCalls := by
    rw [h]
    rfl
  have hlists : m.after.remote.listRequests = m.book.remote.listRequests ++ [names] := by
    rw [h]
    rfl
  unfold Moment.calls Moment.listCalls
  rw [hcalls, hlists, Nat.sub_self, List.drop_left]
  exact ⟨rfl, rfl⟩

/-- Who is in a sync of the slot map does not ask for lists. -/
theorem listCalls_of_busy {m : Moment}
    (busy : ∃ phase, m.progress = .goesOn phase ∧ validators.Busy phase) : m.listCalls = [] := by
  obtain ⟨phase, hp, hbusy⟩ := busy
  rcases move_asks m with hsame | ⟨left, hremote, -⟩ | ⟨names, left, -, hgoes⟩
  · exact (calls_of_same hsame).2
  · exact (calls_of_askValidators hremote).2
  · rw [hgoes] at hp
    cases hp
    rcases hbusy with ⟨_, _, _, hphase⟩ | ⟨_, _, hphase⟩
    · cases hphase
    · cases hphase

theorem calls_eq (m : Moment) : m.calls = (validators.delay? m).toList.length := by
  rcases move_asks m with hsame | ⟨left, hremote, -⟩ | ⟨names, left, hremote, -⟩
  · rw [(calls_of_same hsame).1, delay?_eq_none (congrArg Remote.validatorCalls hsame)]
    rfl
  · have hsome : validators.delay? m = some m.book.remote.askValidators.1.delay := by
      refine if_neg ?_
      rw [hremote]
      exact Nat.succ_ne_self m.book.remote.validatorCalls
    rw [(calls_of_askValidators hremote).1, hsome]
    rfl
  · have hmade : validators.made m.after.remote = validators.made m.book.remote := by
      rw [hremote]
      rfl
    rw [(calls_of_askLists hremote).1, delay?_eq_none hmade]
    rfl

theorem length_listCalls (names : List String) (m : Moment) :
    m.listCalls.length = ((lists names).delay? m).toList.length := by
  rcases move_asks m with hsame | ⟨left, hremote, -⟩ | ⟨others, left, hremote, -⟩
  · have hmade : (lists names).made m.after.remote = (lists names).made m.book.remote := by
      rw [hsame]
    rw [(calls_of_same hsame).2, delay?_eq_none hmade]
    rfl
  · have hmade : (lists names).made m.after.remote = (lists names).made m.book.remote := by
      rw [hremote]
      rfl
    rw [(calls_of_askValidators hremote).2, delay?_eq_none hmade]
    rfl
  · have hsome : (lists names).delay? m = some (m.book.remote.askLists names).1.delay := by
      refine if_neg ?_
      rw [hremote]
      show (m.book.remote.listRequests ++ [others]).length ≠ m.book.remote.listRequests.length
      rw [List.length_append]
      exact Nat.succ_ne_self _
    rw [(calls_of_askLists hremote).2, hsome]
    rfl

theorem sum_calls (ms : List Moment) :
    (ms.map Moment.calls).sum = (validators.delays ms).length := by
  unfold Pursuit.delays
  rw [List.filterMap_eq_flatMap_toList, List.length_flatMap, funext calls_eq]

theorem length_flatMap_listCalls (names : List String) (ms : List Moment) :
    (ms.flatMap Moment.listCalls).length = ((lists names).delays ms).length := by
  unfold Pursuit.delays
  rw [List.filterMap_eq_flatMap_toList, List.length_flatMap, List.length_flatMap,
    funext (length_listCalls names)]

/-! ### The lists -/

variable {r s : Relay} {t : Task} {m : Moment} {ms : List Moment} {es : List Event}

/-- The lists follow the end of a sync of the slot map, if they are wanted and the sync was no
second one; else the task ends. -/
theorem follows_of_ends {o : Outcome} (h : m.EndsValidators o) :
    if m.book.settings.complianceLists = true ∧ m.task.goesOnToLists o = true then m.BeginsLists
    else m.progress = .ends o ∧ m.after.remote = m.book.remote := by
  obtain ⟨⟨due, left, reply, hphase, -⟩, cache, log, hmove⟩ := h
  obtain ⟨log', hends⟩ := endValidators_eq
    ({ m.book with cache, syncing := false, log } : Relay) m.task o
  rw [hends] at hmove
  split
  · rename_i hwanted
    rw [if_pos hwanted] at hmove
    refine ⟨?_, cache, false, log', hmove⟩
    rw [hphase]
    rfl
  · rename_i hno
    rw [if_neg hno] at hmove
    exact ⟨congrArg Prod.snd hmove, congrArg (fun x => x.1.remote) hmove⟩

/-- Where only the lists are wanted the first move begins with them. -/
theorem begins_of_waiting (waits : m.task.phase = .waiting) (kind : m.task.purpose = .lists) :
    m.BeginsLists := by
  refine ⟨?_, m.book.cache, m.book.syncing, m.book.log, move_of_waiting_lists waits kind⟩
  rw [waits]
  rfl

/-- What becomes of a sync of the lists that begins with `m`. -/
inductive ListPhase (m : Moment) : List Moment → Prop
  /-- No list is named. -/
  | skips (unnamed : m.names = []) (same : m.after.remote = m.book.remote)
      (ends : m.progress = .ends (.ok 0)) : ListPhase m []
  | asks {ms : List Moment} (named : m.names ≠ [])
      (budget : (lists m.names).Budget m.task.retries m ms) : ListPhase m ms

theorem listPhase (thread : Thread r t (m :: ms)) (begins : m.BeginsLists) : ListPhase m ms := by
  rcases begins.cases with ⟨hnone, hsame, hends⟩ | ⟨hnamed, -, -⟩
  · obtain rfl := thread.nil_of_ends hends
    exact .skips hnone hsame hends
  · exact .asks hnamed ((Pursuit.lawful_lists m.names).budget thread (asks_lists begins hnamed))

theorem ListPhase.listCalls_le (h : ListPhase m ms) :
    ((m :: ms).flatMap Moment.listCalls).length ≤ m.task.retries + 1 := by
  cases h with
  | skips unnamed same ends =>
    rw [List.flatMap_singleton, (calls_of_same same).2]
    exact Nat.zero_le _
  | asks named budget =>
    rw [length_flatMap_listCalls m.names]
    exact budget.delays_le

/-! ### All the moves of a task -/

/-- **What a task goes through from its first move on.** -/
inductive Career (t : Task) : List Moment → Prop
  | rests : Career t []
  /-- The flag is up. -/
  | refused {m : Moment} (task : m.task = t) (kind : t.purpose = .lookup ∨ t.purpose = .validators)
      (up : m.book.syncing = true) (ends : ∃ log, m.book.move m.task =
        ({ m.book with log }, .ends (.error .busy))) : Career t [m]
  /-- Only the lists are wanted. -/
  | lists {m : Moment} {ms : List Moment} (task : m.task = t) (kind : t.purpose = .lists)
      (quiet : validators.delays (m :: ms) = []) (begins : m.BeginsLists)
      (phase : ListPhase m ms) : Career t (m :: ms)
  /-- No answer has decided so far. -/
  | pending {m : Moment} {ms : List Moment} {errors : List RelayError} (task : m.task = t)
      (kind : t.purpose ≠ .lists) (down : m.book.syncing = false)
      (pending : validators.Pending t.retries m ms errors) : Career t (m :: ms)
  /-- An answer decides, and the task ends. -/
  | ends {m last : Moment} {us : List Moment} {errors : List RelayError}
      {x : Except RelayError (List Registration)} (task : m.task = t)
      (kind : t.purpose ≠ .lists) (down : m.book.syncing = false)
      (decided : validators.Decided t.retries m us last errors x)
      (unwanted : ¬(last.book.settings.complianceLists = true ∧
        t.goesOnToLists (x.map validators.size) = true))
      (ends : last.progress = .ends (x.map validators.size))
      (same : last.after.remote = last.book.remote) : Career t (m :: (us ++ [last]))
  /-- An answer decides, and the lists follow. -/
  | follows {m last : Moment} {us after : List Moment} {errors : List RelayError}
      {x : Except RelayError (List Registration)} (task : m.task = t)
      (keeps : ∃ phase, last.task = { t with phase })
      (kind : t.purpose ≠ .lists) (down : m.book.syncing = false)
      (decided : validators.Decided t.retries m us last errors x)
      (quiet : validators.delays (last :: after) = [] ∧ validators.answers after = [])
      (wanted : last.book.settings.complianceLists = true ∧
        t.goesOnToLists (x.map validators.size) = true)
      (begins : last.BeginsLists) (phase : ListPhase last after) :
      Career t (m :: (us ++ last :: after))

/-- Who begins a sync of the slot map while the flag is down keeps to the account, and what
follows the end of the sync is settled by its outcome. -/
theorem Thread.career (thread : Thread r t (m :: ms)) (waits : t.phase = .waiting)
    (kind : t.purpose ≠ .lists) (down : m.book.syncing = false) : Career t (m :: ms) := by
  obtain ⟨htask, -, -⟩ := thread.uncons
  have hasks : validators.Asks m t.retries := by
    rw [← htask] at waits kind ⊢
    exact asks_validators waits kind down
  cases Pursuit.lawful_validators.budget thread hasks with
  | pending pending => exact .pending htask kind down pending
  | @decided us after last errors x decided quiet =>
    obtain ⟨hkeeps, -, -⟩ := thread.keeps (m :: us)
    have hgoes : last.task.goesOnToLists (x.map validators.size)
        = t.goesOnToLists (x.map validators.size) := by
      obtain ⟨phase, hlast⟩ := hkeeps
      rw [hlast]
      rfl
    have hat : Thread last.book last.task (last :: after) := thread.at (m :: us)
    have hfollows := follows_of_ends (o := x.map validators.size) decided.returns
    rw [hgoes] at hfollows
    split at hfollows
    · rename_i hwanted
      exact .follows htask hkeeps kind down decided quiet hwanted hfollows (listPhase hat hfollows)
    · rename_i hunwanted
      obtain ⟨hends, hsame⟩ := hfollows
      obtain rfl := hat.nil_of_ends hends
      exact .ends htask kind down decided hunwanted hends hsame

/-- Who finds the flag up as it begins has one move, which asks for nothing. -/
theorem Sound.course_of_syncing (h : Sound r) (ht : t ∈ r.tasks) (waits : t.phase = .waiting)
    (kind : t.purpose ≠ .lists) (course : r.course t.id es = m :: ms)
    (up : m.book.syncing = true) : ms = [] ∧ (t.purpose = .lookup ∨ t.purpose = .validators) ∧
      ∃ log, m.book.move t = ({ m.book with log }, .ends (.error .busy)) := by
  have hthread := thread_course h ht es
  rw [course] at hthread
  obtain ⟨htask, -, -⟩ := hthread.uncons
  obtain ⟨hsound, hmem⟩ := h.at_course (m := m) (by rw [course]; exact List.mem_cons_self)
  rw [htask] at hmem
  have hkind := hsound.kind_of_syncing up hmem waits kind
  obtain ⟨log, hmove⟩ := move_of_syncing up waits hkind
  have hends : m.progress = .ends (.error .busy) := by rw [Moment.progress, htask, hmove]
  exact ⟨hthread.nil_of_ends hends, hkind, log, hmove⟩

/-- **All the moves of a task that has not moved so far.** -/
theorem Sound.career (h : Sound r) (ht : t ∈ r.tasks) (waits : t.phase = .waiting)
    (es : List Event) : Career t (r.course t.id es) := by
  have hthread := thread_course h ht es
  cases hcourse : r.course t.id es with
  | nil => exact .rests
  | cons m ms =>
    rw [hcourse] at hthread
    obtain ⟨htask, -, -⟩ := hthread.uncons
    by_cases hkind : t.purpose = .lists
    · have hbegins : m.BeginsLists := begins_of_waiting (htask ▸ waits) (htask ▸ hkind)
      have hquits : validators.Quits m := by
        have hmove := move_of_waiting_lists (r := m.book) waits hkind
        unfold Pursuit.Quits Moment.after Moment.progress
        rw [htask, hmove]
        exact beginLists_quits m.book t
      exact .lists htask hkind (Pursuit.lawful_validators.quiet_of_quits hthread hquits).1 hbegins
        (listPhase hthread hbegins)
    · cases hup : m.book.syncing with
      | false => exact hthread.career waits hkind hup
      | true =>
        obtain ⟨rfl, hkind', log, hmove⟩ := h.course_of_syncing ht waits hkind hcourse hup
        exact .refused htask hkind' hup ⟨log, by rw [htask, hmove]⟩

/-! ### How many requests -/

theorem listCalls_of_all_busy {us : List Moment}
    (busy : ∀ u ∈ us, ∃ phase, u.progress = .goesOn phase ∧ validators.Busy phase) :
    us.flatMap Moment.listCalls = [] :=
  List.flatMap_eq_nil_iff.mpr fun u hu => listCalls_of_busy (busy u hu)

/-- **As many requests for registrations as there are attempts**, and no more. -/
theorem Career.calls_le (h : Career t ms) : (ms.map Moment.calls).sum ≤ t.retries + 1 := by
  rw [sum_calls]
  cases h with
  | rests => exact Nat.zero_le _
  | @refused m task kind up ends =>
    have hsame := congrArg Remote.validatorCalls (same_of_refused ends)
    rw [delays_cons_of_none (delay?_eq_none hsame)]
    exact Nat.zero_le _
  | lists task kind quiet =>
    rw [quiet]
    exact Nat.zero_le _
  | pending task kind down pending => exact (Budget.pending pending).delays_le
  | ends task kind down decided unwanted ends same =>
    refine (Budget.decided decided ⟨?_, rfl⟩).delays_le
    exact delays_cons_of_none (delay?_eq_none (congrArg Remote.validatorCalls same))
  | follows task keeps kind down decided quiet =>
    exact (Budget.decided decided quiet).delays_le

/-- **And as many for lists.** -/
theorem Career.listCalls_le (h : Career t ms) :
    (ms.flatMap Moment.listCalls).length ≤ t.retries + 1 := by
  cases h with
  | rests => exact Nat.zero_le _
  | @refused m task kind up ends =>
    rw [List.flatMap_singleton, (calls_of_same (same_of_refused ends)).2]
    exact Nat.zero_le _
  | lists task kind quiet begins phase => exact task ▸ phase.listCalls_le
  | pending task kind down pending =>
    rw [listCalls_of_all_busy pending.busy]
    exact Nat.zero_le _
  | @ends m last us errors x task kind down decided unwanted ends same =>
    rw [← List.cons_append, List.flatMap_append, listCalls_of_all_busy decided.busy,
      List.flatMap_singleton, (calls_of_same same).2]
    exact Nat.zero_le _
  | @follows m last us after errors x task keeps kind down decided quiet wanted begins phase =>
    obtain ⟨standing, hlast⟩ := keeps
    have hretries : last.task.retries = t.retries := by rw [hlast]
    rw [← List.cons_append, List.flatMap_append, listCalls_of_all_busy decided.busy, ← hretries]
    exact phase.listCalls_le

/-- The first sync may try again three times, and the task of a lookup once. -/
def Task.Modest (t : Task) : Prop :=
  (t.purpose = .startup → t.retries = startupRetries) ∧
    (t.purpose = .lookup → t.retries = lookupRetries)

theorem Reachable.modest (h : Reachable s) : ∀ t ∈ s.tasks, Task.Modest t := by
  have hstep : Sound s ∧ ∀ t ∈ s.tasks, Task.Modest t := by
    refine h.induct (P := fun s => Sound s ∧ ∀ t ∈ s.tasks, Task.Modest t) ?_ ?_
    · intro r
      refine ⟨sound_opened r, fun t ht => ?_⟩
      rw [List.mem_singleton.mp ht]
      exact ⟨fun _ => rfl, nofun⟩
    · rintro r e ⟨hsound, hmodest⟩
      refine ⟨sound_occur hsound e, fun u hu => ?_⟩
      rcases hsound.mem_occur hu with ⟨hu, -⟩ | ⟨c, -, hbegun⟩ | ⟨before, t, after, -, hready, hu⟩
      · exact hmodest u hu
      · cases hbegun with
        | lookup => exact ⟨nofun, fun _ => rfl⟩
        | sync => exact ⟨nofun, nofun⟩
        | syncLists => exact ⟨nofun, nofun⟩
      · have ht := hmodest t (mem_of_ready hready)
        cases hp : (r.move t).2 with
        | ends o =>
          rw [hp] at hu
          cases hu
        | goesOn phase =>
          rw [hp] at hu
          rw [List.mem_singleton.mp hu]
          exact ht
  exact hstep.2

/-! ### Somebody waits -/

/-- **Somebody who asks for a sync and waits for it** is told what the answer brings that decides;
the requests and the pauses between them take all the time that passes. -/
def Performs {α : Type} (k : Pursuit α) (r : Relay) (slot : UInt64) (retries : Nat) : Prop :=
  ∃ es m us last errors x,
    let q := r.begin true k.purpose slot retries
    r.perform k.purpose slot retries = (some (x.map k.size), q.run es) ∧
    m.book = q ∧ q.course r.nextId es = m :: (us ++ [last]) ∧
    k.Decided retries m us last errors x ∧
    (q.run es).now = r.now + (k.delays (m :: us)).sum + errors.length * r.retryDelay

/-- A sync that begins with a request, and ends the task, is served at once. -/
theorem Sound.performs {α : Type} {k : Pursuit α} (law : k.Lawful) (h : Sound r)
    (filled : r.isOpening = false) (kind : k.purpose ≠ .startup)
    (returns : ∀ {m : Moment} {o}, m.task.purpose = k.purpose → k.Returns m o →
      m.progress = .ends o) {slot : UInt64} {retries : Nat}
    (asks : k.Asks ⟨r.begin true k.purpose slot retries,
      { id := r.nextId, purpose := k.purpose, slot, retries }⟩ retries) :
    Performs k r slot retries := by
  let q := r.begin true k.purpose slot retries
  let t : Task := { id := r.nextId, purpose := k.purpose, slot, retries }
  have hsound : Sound q := sound_begin h filled true slot retries kind
  have htasks : q.tasks = t :: r.tasks := rfl
  have ht : t ∈ q.tasks := List.mem_cons_self
  obtain ⟨es, ms, m, o, hrun, hcourse, hprompt, hm, hends, hrecord, hnow⟩ :=
    hsound.await_first htasks rfl h.outcome?_nextId
  have hthread := thread_course hsound ht es
  rw [hcourse] at hthread
  have hperform : r.perform k.purpose slot retries = (some o, q.run es) := by
    rw [← hrecord, ← hrun]
    rfl
  cases law.budget hthread asks with
  | pending pending =>
    obtain ⟨phase, hgoes, -⟩ := pending.busy m hm
    rw [hends] at hgoes
    cases hgoes
  | @decided us after last errors x decided quiet =>
    obtain ⟨⟨phase, hlast⟩, -, -⟩ := hthread.keeps (⟨q, t⟩ :: us)
    have hended : last.progress = .ends (x.map k.size) :=
      returns (by rw [hlast]) decided.returns
    obtain rfl := (hthread.at (⟨q, t⟩ :: us)).nil_of_ends hended
    -- All moves but the last go on, so the one that ends is the last.
    obtain rfl : m = last := by
      rw [← List.cons_append] at hm
      rcases List.mem_append.mp hm with hm | hm
      · obtain ⟨phase', hgoes, -⟩ := decided.busy m hm
        rw [hends] at hgoes
        cases hgoes
      · exact List.mem_singleton.mp hm
    rw [hends] at hended
    cases hended
    refine ⟨es, ⟨q, t⟩, us, m, errors, x, hperform, rfl, hcourse, decided, ?_⟩
    rw [← hrun, hnow]
    exact decided.time hprompt

theorem Sound.performs_validators (h : Sound r) (filled : r.isOpening = false)
    (down : r.syncing = false) (slot : UInt64) (retries : Nat) :
    Performs validators r slot retries := by
  refine h.performs Pursuit.lawful_validators filled nofun ?_ (asks_validators rfl nofun down)
  intro m o hkind hreturns
  have hno : m.task.goesOnToLists o = false := by
    have hvalidators : m.task.purpose = .validators := hkind
    unfold Task.goesOnToLists
    rw [hvalidators]
  have hfollows := follows_of_ends hreturns
  rw [hno, if_neg fun hc => Bool.false_ne_true hc.2] at hfollows
  exact hfollows.1

theorem Sound.performs_lists (h : Sound r) (filled : r.isOpening = false)
    (named : SlotMap.listNames r.cache.slots ≠ []) (slot : UInt64) (retries : Nat) :
    Performs (lists (SlotMap.listNames r.cache.slots)) r slot retries := by
  let q := r.begin true .lists slot retries
  let t : Task := { id := r.nextId, purpose := .lists, slot, retries }
  have hmove : q.move t = q.beginLists t := move_of_waiting_lists rfl rfl
  have hbegins : Moment.BeginsLists ⟨q, t⟩ := begins_of_waiting rfl rfl
  have hnames : Moment.names ⟨q, t⟩ = SlotMap.listNames r.cache.slots := by
    obtain ⟨remote, log, p, hframe, -⟩ := beginLists_frame q t
    unfold Moment.names Moment.after
    rw [hmove, hframe]
    rfl
  have hasks := asks_lists hbegins (hnames ▸ named)
  rw [hnames] at hasks
  refine h.performs (Pursuit.lawful_lists _) filled nofun ?_ hasks
  exact fun _ hreturns => hreturns

/-! ### The main result -/

/-- At most `n` requests of each kind. -/
def Within (n : Nat) (ms : List Moment) : Prop :=
  (ms.map Moment.calls).sum ≤ n ∧ (ms.flatMap Moment.listCalls).length ≤ n

/--
**A sync that may try again `retries` times makes at most `retries + 1` requests.**  Be it for the
slot map or for lists, alone or in whatever company, each sync that makes requests keeps to the
account: the first success decides, or the last failure does, and there are just as many requests
as answers up to then.  A task ends unless it is dropped.  The scheduler lets each task move when
it is due, and who waits for a sync gets the answer that decides after the time that the requests
and the pauses between them take.
-/
theorem retry_budget {s : Relay} (h : Reachable s) :
    (∀ t ∈ s.tasks, t.phase = .waiting → ∀ es,
      let ms := s.course t.id es
      (∀ m us, ms = m :: us → t.purpose ≠ .lists → m.book.syncing = false →
        validators.Budget t.retries m us) ∧
      (∀ us m vs, ms = us ++ m :: vs → m.BeginsLists → m.names ≠ [] →
        (lists m.names).Budget t.retries m vs) ∧
      Within (t.retries + 1) ms ∧ (t.purpose = .startup → Within 4 ms) ∧
      (t.purpose = .lookup → Within 2 ms) ∧
      ((∃ m ∈ ms, ∃ o, m.progress = .ends o) ∨ (∃ u ∈ (s.run es).tasks, u.id = t.id) ∨
        .call (.abort t.id) ∈ es)) ∧
    (∀ limit, ∃ es, s.runUntil limit = s.run es ∧
      ∀ t ∈ s.tasks, t.phase = .waiting → ∀ m ∈ s.course t.id es, m.Prompt) ∧
    (s.isOpening = false → ∀ slot retries,
      (s.syncing = false → Performs validators s slot retries) ∧
      (SlotMap.listNames s.cache.slots ≠ [] →
        Performs (lists (SlotMap.listNames s.cache.slots)) s slot retries)) := by
  have hsound := h.sound
  refine ⟨?_, ?_, ?_⟩
  · intro t ht waits es ms
    have hthread : Thread s t ms := thread_course hsound ht es
    have hcareer : Career t ms := hsound.career ht waits es
    have hwithin : Within (t.retries + 1) ms := ⟨hcareer.calls_le, hcareer.listCalls_le⟩
    obtain ⟨hstartup, hlookup⟩ := h.modest t ht
    refine ⟨?_, ?_, hwithin, ?_, ?_, ?_⟩
    · intro m us hms hkind hdown
      rw [hms] at hthread
      obtain ⟨rfl, -, -⟩ := hthread.uncons
      exact Pursuit.lawful_validators.budget hthread (asks_validators waits hkind hdown)
    · intro us m vs hms hbegins hnamed
      rw [hms] at hthread
      obtain ⟨⟨phase, htask⟩, -, -⟩ := hthread.keeps us
      have hasks := asks_lists hbegins hnamed
      have hretries : m.task.retries = t.retries := by rw [htask]
      rw [hretries] at hasks
      exact (Pursuit.lawful_lists _).budget (hthread.at us) hasks
    · intro hkind
      rw [hstartup hkind] at hwithin
      exact hwithin
    · intro hkind
      rw [hlookup hkind] at hwithin
      exact hwithin
    · rcases hsound.course_ends ht es with ⟨m, hm, o, hends, -⟩ | ⟨-, -, hcases⟩
      · exact Or.inl ⟨m, hm, o, hends⟩
      · exact Or.inr hcases
  · intro limit
    obtain ⟨es, hrun, hled⟩ := hsound.runUntil_led limit
    exact ⟨es, hrun, fun t ht waits => hled.prompt t ht (Or.inl waits)⟩
  · intro filled slot retries
    exact ⟨fun down => hsound.performs_validators filled down slot retries,
      fun named => hsound.performs_lists filled named slot retries⟩

/-- A filled book whose other side is slow now, and fails in different ways.  A lookup has just
started a sync. -/
def stuttering : Relay :=
  (opened (serving [])).run [.move 0, .move 0, .move 0,
    .answers { validatorPlan := [⟨5, .answer (.error .notFound)⟩, ⟨7, .answer (.error .busy)⟩]
               listPlan := [⟨9, .answer (.error .notFound)⟩] },
    .call (.lookup 64)]

/-- Its task fails twice, and gives up after `5 + 1000 + 7` milliseconds. -/
theorem retry_budget_stuttering :
    let es := [Event.move 1, .pass 5, .move 1, .pass 1000, .move 1, .pass 7, .move 1]
    ((stuttering.course 1 es).map Moment.calls).sum = 2 ∧ Within 2 (stuttering.course 1 es) ∧
      Performs validators stuttering 40 1 ∧
      Performs (lists (SlotMap.listNames stuttering.cache.slots)) stuttering 40 2 := by
  intro es
  let t : Task := { id := 1, purpose := .lookup, slot := 64, retries := 1 }
  have ht : t ∈ stuttering.tasks := List.mem_cons_self
  obtain ⟨htasks, -, hperforms⟩ := retry_budget (s := stuttering) ⟨_, _, rfl⟩
  obtain ⟨-, -, -, -, hwithin, -⟩ := htasks t ht rfl es
  obtain ⟨hvalidators, hlists⟩ := hperforms rfl 40 1
  have hnamed : SlotMap.listNames stuttering.cache.slots = ["custom"] := rfl
  refine ⟨rfl, hwithin rfl, hvalidators rfl, (hperforms rfl 40 2).2 ?_⟩
  rw [hnamed]
  nofun

end Relay

end ProposerBook
