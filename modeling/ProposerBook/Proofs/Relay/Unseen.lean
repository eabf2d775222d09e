/-
Who looks at a book changes nothing but its log.

A peek and a request over HTTP leave the book as it is but for the log, as `Proofs.Relay.Looks`
tells of each handler.  That alone would not do, for what is written to the log might be read again
by whatever comes later.  So the other half of the argument is that nothing reads the log: two
books that are alike but for their logs make the same moves, wait for the same times, give the same
answers and are alike again afterwards.  This goes from the parts of a move up to the scheduler,
part by part; `quiet` is what is compared after a part of a move, and `hush` what is compared of a
book.

From the two halves, a run with any number of looks in it goes like the run without them.
-/
import ProposerBook.Proofs.Relay.Schedule

namespace ProposerBook

/-- Somebody looks at a book. -/
inductive Look
  | peek (slot : UInt64)
  | inspect (q : Inspection.Request)

/-- Something happens to a book or is done with it, the ways of the scheduler to let time pass
among it. -/
inductive Step
  | event (e : Event)
  | settle
  | advance (ms : Nat)
  | perform (purpose : Purpose) (slot : UInt64) (retries : Nat)
  | submit (b : Block)

/-- What somebody is told who takes a step. -/
inductive Told
  | nothing
  | preferences (x : Except RelayError Preferences)
  | response (x : Inspection.Response) (findings : List Registry.Finding)
  /-- The name of a task that has begun. -/
  | task (id : Nat)
  | outcome (x : Option Outcome)
  | receipt (x : Except RelayError Unit)

/-- What is done to a book, without the looks at it. -/
def steps (plan : List (Look ⊕ Step)) : List Step := plan.filterMap Sum.getRight?

namespace Relay

/-- The book after a look at it. -/
def look (r : Relay) : Look → Relay
  | .peek slot => (r.peek slot).2
  | .inspect q => (r.inspect q).2

def take (r : Relay) : Step → Relay
  | .event e => r.occur e
  | .settle => r.settle
  | .advance ms => r.advance ms
  | .perform purpose slot retries => (r.perform purpose slot retries).2
  | .submit b => (r.submit b).2

def tellCall (r : Relay) : Call → Told
  | .lookup slot => .preferences (r.lookup slot).1
  | .peek slot => .preferences (r.peek slot).1
  | .inspect q => .response (r.inspect q).1.response (r.inspect q).1.findings
  | .sync .. | .syncLists .. => .task r.nextId
  | .submit b => .receipt (r.submit b).1
  | .abort _ => .nothing

def tell (r : Relay) : Step → Told
  | .event (.call c) => if r.isOpening then .nothing else r.tellCall c
  | .event _ | .settle | .advance _ => .nothing
  | .perform purpose slot retries => .outcome (r.perform purpose slot retries).1
  | .submit b => .receipt (r.submit b).1

/-- The book after these steps. -/
def follow (r : Relay) (ss : List Step) : Relay := ss.foldl take r

/-- The book after these steps, with looks at it in between. -/
def watched (r : Relay) (plan : List (Look ⊕ Step)) : Relay :=
  plan.foldl (fun r x => x.elim r.look r.take) r

/-! ### A move does not read the log -/

/-- What comes of a move but for the log. -/
def quiet (x : Relay × Progress) : Relay × Progress := (x.1.hush, x.2)

section Moves

variable (r : Relay) (l m : List LogEvent) (t : Task)

theorem quiet_endLists (o : Outcome) : quiet (({ r with log := l } : Relay).endLists t o) =
    quiet (({ r with log := m } : Relay).endLists t o) := by
  obtain ⟨l', hl⟩ := endLists_eq { r with log := l } t o
  obtain ⟨m', hm⟩ := endLists_eq { r with log := m } t o
  rw [hl, hm]
  rfl

theorem quiet_beginLists : quiet (({ r with log := l } : Relay).beginLists t) =
    quiet (({ r with log := m } : Relay).beginLists t) := by
  obtain ⟨l', hl⟩ := beginLists_eq { r with log := l } t
  obtain ⟨m', hm⟩ := beginLists_eq { r with log := m } t
  rw [hl, hm]
  dsimp only
  split
  · rfl
  · rfl

theorem quiet_endValidators (o : Outcome) :
    quiet (({ r with log := l } : Relay).endValidators t o) =
      quiet (({ r with log := m } : Relay).endValidators t o) := by
  obtain ⟨l', hl⟩ := endValidators_eq { r with log := l } t o
  obtain ⟨m', hm⟩ := endValidators_eq { r with log := m } t o
  rw [hl, hm]
  dsimp only
  split
  · exact quiet_beginLists r l' m' t
  · rfl

theorem quiet_beginValidators : quiet (({ r with log := l } : Relay).beginValidators t) =
    quiet (({ r with log := m } : Relay).beginValidators t) := by
  unfold beginValidators
  dsimp only
  split
  · exact quiet_endValidators r l m t _
  · rfl

theorem quiet_takeValidators (left : Nat) (x : Except RelayError (List Registration)) :
    quiet (({ r with log := l } : Relay).takeValidators t left x) =
      quiet (({ r with log := m } : Relay).takeValidators t left x) := by
  unfold takeValidators
  split
  · rename_i rs
    obtain ⟨l', hl⟩ := noteMalformed_eq { r with log := l } rs
    obtain ⟨m', hm⟩ := noteMalformed_eq { r with log := m } rs
    rw [hl, hm]
    exact quiet_endValidators
      { r with cache := ⟨SlotMap.ofRegistrations rs, some t.slot⟩, syncing := false } _ _ t _
  · exact quiet_endValidators { r with syncing := false } _ _ t _
  · rfl

theorem quiet_takeLists (names : List String) (left : Nat) (x : Except RelayError NamedLists) :
    quiet (({ r with log := l } : Relay).takeLists t names left x) =
      quiet (({ r with log := m } : Relay).takeLists t names left x) := by
  unfold takeLists
  split
  · rename_i lists
    exact quiet_endLists { r with registry := r.registry.update r.arrivals lists } _ _ t _
  · exact quiet_endLists r _ _ t _
  · rfl

theorem quiet_move : quiet (({ r with log := l } : Relay).move t) =
    quiet (({ r with log := m } : Relay).move t) := by
  unfold move
  split
  · split
    · exact quiet_beginLists r l m t
    · exact quiet_beginValidators r l m t
  · exact quiet_takeValidators r l m t _ _
  · rfl
  · exact quiet_takeLists r l m t _ _ _
  · rfl

end Moves

/-! ### Nothing that happens reads the log -/

/-- What `f` makes of a book does not depend on the log. -/
def Deaf (f : Relay → Relay) : Prop :=
  ∀ (r : Relay) (log : List LogEvent), (f { r with log }).hush = (f r).hush

theorem Deaf.congr {f : Relay → Relay} (h : Deaf f) {r s : Relay} (same : r.hush = s.hush) :
    (f r).hush = (f s).hush := by
  obtain ⟨log, rfl⟩ := exists_log same
  exact h s log

theorem Deaf.comp {f g : Relay → Relay} (hf : Deaf f) (hg : Deaf g) : Deaf fun r => g (f r) :=
  fun r log => hg.congr (hf r log)

theorem deaf_moved (before : List Task) (t : Task) (after : List Task) :
    Deaf fun r => r.moved before t after := by
  intro r log
  obtain ⟨hstate, hprogress⟩ := Prod.mk.inj (quiet_move r log r.log t)
  show { (({ r with log } : Relay).move t).1.hush with
      tasks := before ++ ((({ r with log } : Relay).move t).2.remains t ++ after)
      outcomes := (({ r with log } : Relay).move t).2.record t ++
        (({ r with log } : Relay).move t).1.hush.outcomes } =
    { (r.move t).1.hush with
      tasks := before ++ ((r.move t).2.remains t ++ after)
      outcomes := (r.move t).2.record t ++ (r.move t).1.hush.outcomes }
  rw [hstate, hprogress]

theorem deaf_noteOverride (slot : UInt64) : Deaf fun r => r.noteOverride slot := by
  intro r log
  obtain ⟨l, hl⟩ := noteOverride_eq { r with log } slot
  obtain ⟨m, hm⟩ := noteOverride_eq r slot
  dsimp only
  rw [hl, hm]
  rfl

theorem deaf_inspect (q : Inspection.Request) : Deaf fun r => (r.inspect q).2 :=
  fun r log => (hush_inspect { r with log } q).trans (hush_inspect r q).symm

theorem deaf_lookup (slot : UInt64) : Deaf fun r => (r.lookup slot).2 := by
  have hstart : Deaf fun r : Relay =>
      if r.cache.isStale slot then (r.spawn .lookup slot lookupRetries).2 else r := by
    intro r log
    dsimp only
    split
    · rfl
    · rfl
  exact hstart.comp (deaf_noteOverride slot)

/-- What is handed in does not depend on the log, and is all that changes. -/
theorem handIn_eq (r : Relay) (b : Block) : ∃ log, r.handIn b =
    match r.submission b with
    | .error _ => { r with log }
    | .ok s => { r with remote := (r.remote.submit s).2, log } := by
  have hsubmission : ∀ log : List LogEvent,
      ({ r with log } : Relay).submission b = r.submission b := fun _ => rfl
  unfold handIn note
  dsimp only
  rw [hsubmission]
  cases r.submission b with
  | error e => exact ⟨_, rfl⟩
  | ok s => exact ⟨_, rfl⟩

theorem deaf_handIn (b : Block) : Deaf fun r => r.handIn b := by
  intro r log
  obtain ⟨l, hl⟩ := handIn_eq { r with log } b
  obtain ⟨m, hm⟩ := handIn_eq r b
  have hsubmission : ({ r with log } : Relay).submission b = r.submission b := rfl
  dsimp only
  rw [hl, hm, hsubmission]
  cases r.submission b with
  | error e => rfl
  | ok s => rfl

theorem deaf_serve (c : Call) : Deaf fun r => r.serve c := by
  cases c with
  | lookup slot => exact deaf_lookup slot
  | peek slot => exact deaf_noteOverride slot
  | inspect q => exact deaf_inspect q
  | sync awaited slot retries => exact fun _ _ => rfl
  | syncLists awaited slot retries => exact fun _ _ => rfl
  | submit b => exact deaf_handIn b
  | abort id => exact fun _ _ => rfl

theorem deaf_occur (e : Event) : Deaf fun r => r.occur e := by
  intro r log
  cases e with
  | call c =>
    show (if r.isOpening then ({ r with log } : Relay) else ({ r with log } : Relay).serve c).hush =
      (if r.isOpening then r else r.serve c).hush
    split
    · rfl
    · exact deaf_serve c r log
  | move id =>
    have hready : ({ r with log } : Relay).ready? id = r.ready? id := rfl
    unfold occur
    dsimp only
    rw [hready]
    cases r.ready? id with
    | none => rfl
    | some x => exact deaf_moved x.1 x.2.1 x.2.2 r log
  | pass ms => rfl
  | answers remote => rfl
  | register slot p => rfl
  | unregister slot => rfl
  | registry o => rfl

/-! ### The scheduler does not read the log -/

section Scheduler

variable {r s : Relay}

theorem hush_turn? (same : r.hush = s.hush) : r.turn?.map hush = s.turn?.map hush := by
  obtain ⟨log, rfl⟩ := exists_log same
  rw [turn?_eq, turn?_eq, Option.map_map, Option.map_map]
  refine congrArg (fun f => (firstReady s.now s.tasks).map f) (funext fun x => ?_)
  exact deaf_moved x.1 x.2.1 x.2.2 s log

theorem hush_tick? (same : r.hush = s.hush) (limit : Option Nat) :
    (r.tick? limit).map hush = (s.tick? limit).map hush := by
  have hturn := hush_turn? same
  have hwait : ∀ due, (r.waitUntil due).hush = (s.waitUntil due).hush := by
    intro due
    obtain ⟨log, rfl⟩ := exists_log same
    rfl
  have hdue : r.nextDue? = s.nextDue? := by
    obtain ⟨log, rfl⟩ := exists_log same
    rfl
  unfold tick?
  rw [hdue]
  cases hr : r.turn? with
  | some r' =>
    rw [hr] at hturn
    cases hs : s.turn? with
    | some s' =>
      rw [hs] at hturn
      exact hturn
    | none =>
      rw [hs] at hturn
      cases hturn
  | none =>
    rw [hr] at hturn
    cases hs : s.turn? with
    | some s' =>
      rw [hs] at hturn
      cases hturn
    | none =>
      dsimp only
      split
      · rfl
      · rename_i due _
        split
        · exact hush_turn? (hwait due)
        · rfl

/-- Where one book goes on, so does the other. -/
theorem exists_tick (same : r.hush = s.hush) {limit : Option Nat} {r' : Relay}
    (tick : r.tick? limit = some r') : ∃ s', s.tick? limit = some s' ∧ r'.hush = s'.hush := by
  have hticks := hush_tick? same limit
  rw [tick] at hticks
  obtain ⟨s', hs', hsame⟩ := Option.map_eq_some_iff.mp hticks.symm
  exact ⟨s', hs', hsame.symm⟩

theorem rest_of_same (same : r.hush = s.hush) {limit : Option Nat} (rest : r.tick? limit = none) :
    s.tick? limit = none := by
  have hticks := hush_tick? same limit
  rw [rest] at hticks
  exact Option.map_eq_none_iff.mp hticks.symm

theorem hush_runUntil (same : r.hush = s.hush) (limit : Nat) :
    (r.runUntil limit).hush = (s.runUntil limit).hush := by
  induction r using runUntil.induct limit generalizing s with
  | case1 r r' hr ih =>
    obtain ⟨s', hs, hsame⟩ := exists_tick same hr
    rw [runUntil_of_tick hr, runUntil_of_tick hs]
    exact ih hsame
  | case2 r hr =>
    rw [runUntil_of_rest hr, runUntil_of_rest (rest_of_same same hr)]
    exact same

theorem hush_await (same : r.hush = s.hush) (id : Nat) : (r.await id).hush = (s.await id).hush := by
  have houtcome : ∀ {r s : Relay}, r.hush = s.hush → r.outcome? id = s.outcome? id := by
    intro r s same
    obtain ⟨log, rfl⟩ := exists_log same
    rfl
  induction r using await.induct id generalizing s with
  | case1 r hdone =>
    rw [await_of_done hdone, await_of_done (houtcome same ▸ hdone)]
    exact same
  | case2 r hdone r' hr ih =>
    obtain ⟨s', hs, hsame⟩ := exists_tick same hr
    rw [await_of_tick hdone hr, await_of_tick (houtcome same ▸ hdone) hs]
    exact ih hsame
  | case3 r _ hr =>
    rw [await_of_rest hr, await_of_rest (rest_of_same same hr)]
    exact same

end Scheduler

theorem deaf_advance (ms : Nat) : Deaf fun r => r.advance ms := by
  intro r log
  have hrun := hush_runUntil (r := { r with log }) (s := r) rfl (r.now + ms)
  show { (({ r with log } : Relay).runUntil (r.now + ms)).hush with now := r.now + ms } =
    { (r.runUntil (r.now + ms)).hush with now := r.now + ms }
  rw [hrun]

theorem deaf_settle : Deaf settle := fun r log =>
  hush_runUntil (r := { r with log }) (s := r) rfl r.now

theorem perform_eq (r : Relay) (purpose : Purpose) (slot : UInt64) (retries : Nat) :
    r.perform purpose slot retries =
      (((r.begin true purpose slot retries).await r.nextId).outcome? r.nextId,
        (r.begin true purpose slot retries).await r.nextId) := rfl

theorem deaf_perform (purpose : Purpose) (slot : UInt64) (retries : Nat) :
    Deaf fun r => (r.perform purpose slot retries).2 := by
  intro r log
  have hbegin : (({ r with log } : Relay).begin true purpose slot retries).hush =
      (r.begin true purpose slot retries).hush := rfl
  exact hush_await hbegin r.nextId

/-- A block is handed in, and if it went out, time passes until it is answered. -/
theorem submit_eq_handIn (r : Relay) (b : Block) : r.submit b =
    match r.submission b with
    | .error e => (.error e, r.handIn b)
    | .ok s => ((r.remote.submit s).1.reply.resolve (),
        (r.handIn b).advance (r.remote.submit s).1.delay) := by
  have hsubmission : ∀ log : List LogEvent,
      ({ r with log } : Relay).submission b = r.submission b := fun _ => rfl
  unfold submit handIn note
  dsimp only
  rw [hsubmission]
  cases r.submission b with
  | error e => rfl
  | ok s => rfl

theorem deaf_submit (b : Block) : Deaf fun r => (r.submit b).2 := by
  intro r log
  have hsubmission : ({ r with log } : Relay).submission b = r.submission b := rfl
  dsimp only
  rw [submit_eq_handIn, submit_eq_handIn, hsubmission]
  cases r.submission b with
  | error e => exact deaf_handIn b r log
  | ok s => exact (deaf_advance _).congr (deaf_handIn b r log)

/-! ### The main result -/

theorem deaf_take (step : Step) : Deaf fun r => r.take step := by
  cases step with
  | event e => exact deaf_occur e
  | settle => exact deaf_settle
  | advance ms => exact deaf_advance ms
  | perform purpose slot retries => exact deaf_perform purpose slot retries
  | submit b => exact deaf_submit b

section Tell

variable (r : Relay) (log : List LogEvent)

theorem showValidator_told (segment : List Char) :
    (Inspection.showValidator { r with log } segment).1.response =
        (Inspection.showValidator r segment).1.response ∧
      (Inspection.showValidator { r with log } segment).1.findings =
        (Inspection.showValidator r segment).1.findings := by
  unfold Inspection.showValidator
  split
  · exact ⟨rfl, rfl⟩
  · split
    · exact ⟨rfl, rfl⟩
    · exact ⟨rfl, rfl⟩

theorem screen_told (s : Inspection.Screening) :
    (Inspection.screen { r with log } s).1.response = (Inspection.screen r s).1.response ∧
      (Inspection.screen { r with log } s).1.findings = (Inspection.screen r s).1.findings := by
  unfold Inspection.screen
  dsimp only
  split
  · exact ⟨rfl, rfl⟩
  · exact ⟨rfl, rfl⟩

theorem answerCheck_told (q : Inspection.Request) :
    (Inspection.answerCheck { r with log } q).1.response =
        (Inspection.answerCheck r q).1.response ∧
      (Inspection.answerCheck { r with log } q).1.findings =
        (Inspection.answerCheck r q).1.findings := by
  unfold Inspection.answerCheck
  split
  · split
    · exact ⟨rfl, rfl⟩
    · split
      · exact ⟨rfl, rfl⟩
      · exact ⟨rfl, rfl⟩
      · exact screen_told r log _
  · exact ⟨rfl, rfl⟩

theorem answerRoute_told (q : Inspection.Request) (route : Inspection.Route) :
    (Inspection.answerRoute { r with log } q route).1.response =
        (Inspection.answerRoute r q route).1.response ∧
      (Inspection.answerRoute { r with log } q route).1.findings =
        (Inspection.answerRoute r q route).1.findings := by
  cases route with
  | validator segment => exact showValidator_told r log segment
  | health => exact ⟨rfl, rfl⟩
  | version => exact ⟨rfl, rfl⟩
  | lists => exact ⟨rfl, rfl⟩
  | check => exact answerCheck_told r log q

theorem answer_told (q : Inspection.Request) :
    (Inspection.answer { r with log } q).1.response = (Inspection.answer r q).1.response ∧
      (Inspection.answer { r with log } q).1.findings = (Inspection.answer r q).1.findings := by
  unfold Inspection.answer
  split
  · exact ⟨rfl, rfl⟩
  · rename_i route _
    obtain ⟨hresponse, hfindings⟩ := answerRoute_told r log q route
    split
    · dsimp only
      split
      · exact ⟨congrArg (fun x : Inspection.Response => { x with body := none }) hresponse,
          hfindings⟩
      · exact ⟨hresponse, hfindings⟩
    · exact ⟨rfl, rfl⟩

theorem submit_told (b : Block) : (({ r with log } : Relay).submit b).1 = (r.submit b).1 := by
  have hsubmission : ({ r with log } : Relay).submission b = r.submission b := rfl
  rw [submit_eq_handIn, submit_eq_handIn, hsubmission]
  cases r.submission b with
  | error e => rfl
  | ok s => rfl

theorem tellCall_told (c : Call) : ({ r with log } : Relay).tellCall c = r.tellCall c := by
  cases c with
  | inspect q =>
    obtain ⟨hresponse, hfindings⟩ := answer_told r log q
    show Told.response (Inspection.answer { r with log } q).1.response _ = _
    rw [hresponse]
    exact congrArg (Told.response _) hfindings
  | submit b => exact congrArg Told.receipt (submit_told r log b)
  | lookup slot => rfl
  | peek slot => rfl
  | sync awaited slot retries => rfl
  | syncLists awaited slot retries => rfl
  | abort id => rfl

theorem tell_told (step : Step) : ({ r with log } : Relay).tell step = r.tell step := by
  cases step with
  | event e =>
    cases e with
    | call c =>
      show (if r.isOpening then Told.nothing else ({ r with log } : Relay).tellCall c) =
        if r.isOpening then Told.nothing else r.tellCall c
      rw [tellCall_told]
    | _ => rfl
  | perform purpose slot retries =>
    have hbegin : (({ r with log } : Relay).begin true purpose slot retries).hush =
        (r.begin true purpose slot retries).hush := rfl
    obtain ⟨log', hlog⟩ := exists_log (hush_await hbegin r.nextId)
    show Told.outcome ((({ r with log } : Relay).begin true purpose slot retries).await
      r.nextId |>.outcome? r.nextId) = _
    rw [hlog]
    rfl
  | submit b => exact congrArg Told.receipt (submit_told r log b)
  | settle => rfl
  | advance ms => rfl

end Tell

theorem hush_look (r : Relay) (l : Look) : (r.look l).hush = r.hush := by
  cases l with
  | peek slot => exact r.hush_peek slot
  | inspect q => exact r.hush_inspect q

/-- Looks leave a run as it is, but for the log. -/
theorem hush_watched (r : Relay) (plan : List (Look ⊕ Step)) :
    (r.watched plan).hush = (r.follow (steps plan)).hush := by
  have hrun : ∀ (plan : List (Look ⊕ Step)) (r s : Relay), r.hush = s.hush →
      (r.watched plan).hush = (s.follow (steps plan)).hush := by
    intro plan
    induction plan with
    | nil => exact fun r s same => same
    | cons x plan ih =>
      intro r s same
      cases x with
      | inl l => exact ih (r.look l) s ((hush_look r l).trans same)
      | inr step => exact ih (r.take step) (s.take step) ((deaf_take step).congr same)
  exact hrun plan r r rfl

/--
**Looking is not seen.**  Put any looks at a book, peeks and requests over HTTP of whatever kind,
between any steps of a run.  At every time the book is what it would be without them, but for the
log: the slot map and the slot of the last sync, the flag, the overrides, the registry, what the
other side was asked and will answer, the time and whatever goes on in the background.  Who takes
the next step is told the same, and a lookup of whatever slot starts a sync with them if and only
if it starts it without.

This is so because each handler by itself leaves nothing behind but entries of the log, the one
that shows what counts for a slot as well as the others.  It would not be so of a handler that
looked up in place of peeking: wherever the book is not up to date a lookup leaves another one.
-/
theorem looks_unseen (r : Relay) (plan : List (Look ⊕ Step)) (k : Nat) :
    let s := r.watched (plan.take k)
    let t := r.follow (steps (plan.take k))
    s = { t with log := s.log } ∧
    (∀ step, plan[k]? = some (.inr step) → s.tell step = t.tell step) ∧
    (∀ slot, s.cache.isStale slot = t.cache.isStale slot ∧
      (s.lookup slot).2.tasks = (t.lookup slot).2.tasks) ∧
    (∀ slot, (s.peek slot).2.hush = s.hush) ∧
    (∀ q route, (Inspection.answerRoute s q route).2.hush = s.hush) ∧
    (∀ q, (s.inspect q).2.hush = s.hush) ∧
    ∀ slot, (s.lookup slot).2.hush = s.hush ↔ s.cache.isStale slot = false := by
  intro s t
  have same : s.hush = t.hush := hush_watched r (plan.take k)
  refine ⟨eq_of_hush same, ?_, ?_, s.hush_peek, Inspection.hush_answerRoute s, s.hush_inspect,
    s.hush_lookup_iff⟩
  · intro step _
    obtain ⟨log, hlog⟩ := exists_log same
    rw [hlog]
    exact tell_told t log step
  · intro slot
    obtain ⟨log, hlog⟩ := exists_log same
    obtain ⟨log', hlookup⟩ := exists_log ((deaf_lookup slot).congr same)
    exact ⟨by rw [hlog], by rw [hlookup]⟩

/-- A new book whose other side answers at once. -/
def prompt : Relay :=
  { settings := { endpoint := { scheme := [], authority := none, path := .plain [] } } }

/-- Between its first sync and a lookup, somebody asks for the last slot of all, peeks far ahead
and sends nonsense. -/
def curious : List (Look ⊕ Step) :=
  [.inr (.event (.move 0)), .inr (.event (.move 0)),
    .inl (.inspect { target := "/validators/18446744073709551615" }), .inl (.peek 1000000),
    .inl (.inspect { method := "BREW", target := "*" }), .inr (.event (.call (.lookup 32)))]

/-- The lookup starts its sync all the same, and is told the same.  Who shows the slot that it looks
up leaves the book alone, while the lookup does not. -/
theorem looks_unseen_curious :
    let s := (opened prompt).watched (curious.take 5)
    let t := (opened prompt).follow (steps (curious.take 5))
    t.cache.isStale 32 = true ∧ s.cache.isStale 32 = true ∧
      (t.lookup 32).2.tasks.map Task.slot = [32] ∧ (s.lookup 32).2.tasks.map Task.slot = [32] ∧
      s.tell (.event (.call (.lookup 32))) = .preferences (.error .notFound) ∧
      (Inspection.showValidator s "32".toList).2.hush = s.hush ∧ (s.lookup 32).2.hush ≠ s.hush := by
  intro s t
  obtain ⟨-, htell, hlookup, -, hroutes, -, hseen⟩ := looks_unseen (opened prompt) curious 5
  have hstale : t.cache.isStale 32 = true := rfl
  have htasks : (t.lookup 32).2.tasks.map Task.slot = [32] := rfl
  have htold : t.tell (.event (.call (.lookup 32))) = .preferences (.error .notFound) := rfl
  obtain ⟨hsame, htasks'⟩ := hlookup 32
  refine ⟨hstale, hsame.trans hstale, htasks, ?_, (htell _ rfl).trans htold,
    hroutes { target := "/validators/32" } (.validator "32".toList), ?_⟩
  · rw [htasks']
    exact htasks
  · intro hleft
    cases ((hseen 32).mp hleft).symm.trans (hsame.trans hstale)

end Relay

end ProposerBook
