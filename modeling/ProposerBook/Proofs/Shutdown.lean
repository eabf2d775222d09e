/-
A drain waits for everybody, and not in vain.

What a drain goes by is what the tracker tells it, and what the tracker goes by is who is listed in
the state: the listener, the jobs that wait and those that have begun.  That it tells those who wait
just when it is closed and nobody is in it is what is assumed of a tracker (`Tracker.Faithful`).
Who ought to be there is told by the events, so the lists are compared with everybody who was ever
spawned.  An event takes nobody off a list without putting him on another (`after_everybody`), and
therefore the lists are empty just if all have ended.  A drain that waits is over with the event
that empties them (`exists_told`, `Heedful.drained`), and this is the time that counts: later on
others may be spawned for whom nobody waits.

That all end needs more than a look at one state.  Those that wait for the request have to see one,
which is so because a drain makes it before it waits; from then on nobody begins to wait, and time
does the rest.  `Finishing` says what has to happen for this after a drain has begun, `after_cases`
what one event does meanwhile, and the induction goes along the events: first until the jobs have
begun, then until their time is over (`Ending`).  `Fair` adds the turns that the drain needs.
-/
import Mathlib.Algebra.Order.BigOperators.Group.List
import Mathlib.Algebra.Order.Group.Nat
import Mathlib.Data.List.Perm.Basic
import ProposerBook.Shutdown

namespace ProposerBook

/-- Those who wait for the tracker are told that it is over just when it is closed and nobody is in
it. -/
structure Tracker.Faithful (w : Tracker) : Prop where
  tells_iff : ∀ closed n, w closed n = true ↔ closed = true ∧ n = 0

theorem Tracker.faithful_exact : Tracker.exact.Faithful := by
  refine ⟨fun closed n => ?_⟩
  simp [Tracker.exact]

namespace Shutdown

variable {w : Tracker} {s : Shutdown} {e : Event} {es : List Event} {n : Nat}

theorem run_cons (e : Event) (es : List Event) : s.run w (e :: es) = (s.after w e).run w es := rfl

theorem run_append (es fs : List Event) :
    s.run w (es ++ fs) = (s.run w es).run w fs := List.foldl_append

/-- What every event keeps is kept by a run. -/
theorem run_induct {P : Shutdown → Prop} (step : ∀ {s e}, e ∈ es → P s → P (s.after w e))
    (start : P s) : P (s.run w es) := by
  induction es generalizing s with
  | nil => exact start
  | cons e es ih =>
    exact ih (fun he => step (List.mem_cons_of_mem _ he)) (step List.mem_cons_self start)

/-! ### What the listener leaves alone -/

theorem listen_eq (s : Shutdown) : s.listen = s ∨
    s.listen = { s with listening := false, requested := true } := by
  unfold listen
  split
  · exact Or.inr rfl
  · exact Or.inl rfl

@[simp] theorem listen_drain (s : Shutdown) : s.listen.drain = s.drain := by
  rcases s.listen_eq with h | h <;> rw [h]

@[simp] theorem listen_closed (s : Shutdown) : s.listen.closed = s.closed := by
  rcases s.listen_eq with h | h <;> rw [h]

@[simp] theorem listen_now (s : Shutdown) : s.listen.now = s.now := by
  rcases s.listen_eq with h | h <;> rw [h]

@[simp] theorem listen_waiting (s : Shutdown) : s.listen.waiting = s.waiting := by
  rcases s.listen_eq with h | h <;> rw [h]

@[simp] theorem listen_running (s : Shutdown) : s.listen.running = s.running := by
  rcases s.listen_eq with h | h <;> rw [h]

@[simp] theorem listen_ended (s : Shutdown) : s.listen.ended = s.ended := by
  rcases s.listen_eq with h | h <;> rw [h]

/-! ### What a drain leaves alone -/

/-- The drain deals with the request, the tracker and itself. -/
theorem proceed_eq (s : Shutdown) :
    ∃ requested closed drain, s.proceed = { s with requested, closed, drain } := by
  unfold proceed
  split
  · exact ⟨true, s.closed, .requested, rfl⟩
  · exact ⟨s.requested, true, .waiting, rfl⟩
  · exact ⟨s.requested, s.closed, s.drain, rfl⟩
  · exact ⟨s.requested, s.closed, s.drain, rfl⟩

@[simp] theorem proceed_now (s : Shutdown) : s.proceed.now = s.now := by
  obtain ⟨_, _, _, h⟩ := s.proceed_eq
  rw [h]

@[simp] theorem proceed_listening (s : Shutdown) : s.proceed.listening = s.listening := by
  obtain ⟨_, _, _, h⟩ := s.proceed_eq
  rw [h]

@[simp] theorem proceed_waiting (s : Shutdown) : s.proceed.waiting = s.waiting := by
  obtain ⟨_, _, _, h⟩ := s.proceed_eq
  rw [h]

@[simp] theorem proceed_running (s : Shutdown) : s.proceed.running = s.running := by
  obtain ⟨_, _, _, h⟩ := s.proceed_eq
  rw [h]

@[simp] theorem proceed_ended (s : Shutdown) : s.proceed.ended = s.ended := by
  obtain ⟨_, _, _, h⟩ := s.proceed_eq
  rw [h]

/-- What the tracker tells is told to the drain alone. -/
theorem tell_eq (w : Tracker) (s : Shutdown) : ∃ drain, s.tell w = { s with drain } := by
  unfold tell
  split
  · exact ⟨.resolved, rfl⟩
  · exact ⟨s.drain, rfl⟩

@[simp] theorem tell_now (s : Shutdown) : (s.tell w).now = s.now := by
  obtain ⟨_, h⟩ := s.tell_eq w
  rw [h]

@[simp] theorem tell_requested (s : Shutdown) : (s.tell w).requested = s.requested := by
  obtain ⟨_, h⟩ := s.tell_eq w
  rw [h]

@[simp] theorem tell_closed (s : Shutdown) : (s.tell w).closed = s.closed := by
  obtain ⟨_, h⟩ := s.tell_eq w
  rw [h]

@[simp] theorem tell_listening (s : Shutdown) : (s.tell w).listening = s.listening := by
  obtain ⟨_, h⟩ := s.tell_eq w
  rw [h]

@[simp] theorem tell_waiting (s : Shutdown) : (s.tell w).waiting = s.waiting := by
  obtain ⟨_, h⟩ := s.tell_eq w
  rw [h]

@[simp] theorem tell_running (s : Shutdown) : (s.tell w).running = s.running := by
  obtain ⟨_, h⟩ := s.tell_eq w
  rw [h]

@[simp] theorem tell_tracked (s : Shutdown) : (s.tell w).tracked = s.tracked := by
  obtain ⟨_, h⟩ := s.tell_eq w
  rw [h]
  rfl

/-! ### What stays once it is so -/

theorem occur_requested (h : s.requested = true) : (s.occur e).requested = true := by
  cases e with
  | request => rfl
  | listen =>
    show s.listen.requested = true
    rcases s.listen_eq with hs | hs <;> rw [hs]
    exact h
  | proceed =>
    show s.proceed.requested = true
    unfold proceed
    split
    · rfl
    · exact h
    · exact h
    · exact h
  | _ => exact h

theorem occur_listening (h : s.listening = false) : (s.occur e).listening = false := by
  cases e with
  | listen =>
    show s.listen.listening = false
    rcases s.listen_eq with hs | hs <;> rw [hs]
    exact h
  | proceed => exact s.proceed_listening.trans h
  | _ => exact h

theorem run_requested (h : s.requested = true) : (s.run w es).requested = true :=
  run_induct (P := fun s => s.requested = true)
    (fun _ h => (tell_requested _).trans (occur_requested h)) h

theorem run_listening (h : s.listening = false) : (s.run w es).listening = false :=
  run_induct (P := fun s => s.listening = false)
    (fun _ h => (tell_listening _).trans (occur_listening h)) h

/-! ### The steps of a drain -/

/-- How many steps a drain has taken by the time it waits. -/
def stepsOf : Drain → Nat
  | .unbegun => 0
  | .requested => 1
  | .waiting | .resolved => 2

theorem proceed_steps (s : Shutdown) : stepsOf s.proceed.drain = min 2 (stepsOf s.drain + 1) := by
  unfold proceed
  cases hdrain : s.drain with
  | unbegun => rfl
  | requested => rfl
  | waiting =>
    dsimp only
    rw [hdrain]
    rfl
  | resolved =>
    dsimp only
    rw [hdrain]
    rfl

theorem occur_drain_of_ne (h : e ≠ .proceed) : (s.occur e).drain = s.drain := by
  cases e with
  | proceed => exact absurd rfl h
  | listen => exact s.listen_drain
  | _ => rfl

/-- Being told is no step. -/
theorem tell_steps (s : Shutdown) : stepsOf (s.tell w).drain = stepsOf s.drain := by
  unfold tell
  split
  · rename_i h
    rw [h.1]
    rfl
  · rfl

/-- A drain is as far as it has had turns. -/
theorem run_steps : stepsOf (s.run w es).drain =
    min 2 (stepsOf s.drain + es.count .proceed) := by
  have htwo : ∀ d, stepsOf d ≤ 2 := by
    intro d
    cases d <;> decide
  induction es generalizing s with
  | nil => exact (Nat.min_eq_right (htwo s.drain)).symm
  | cons e es ih =>
    show stepsOf (((s.occur e).tell w).run w es).drain = _
    rw [ih, tell_steps]
    by_cases he : e = .proceed
    · rw [he, List.count_cons_self]
      show min 2 (stepsOf s.proceed.drain + _) = _
      rw [proceed_steps]
      omega
    · rw [occur_drain_of_ne he, List.count_cons_of_ne he]

theorem le_run_steps {k : Nat} (within : k ≤ 2) (turns : k ≤ stepsOf s.drain + es.count .proceed) :
    k ≤ stepsOf (s.run w es).drain := by
  rw [run_steps]
  exact Nat.le_min.mpr ⟨within, turns⟩

/-- A drain makes the request before it does anything else, and closes the tracker before it
waits. -/
structure Ordered (s : Shutdown) : Prop where
  requested : 1 ≤ stepsOf s.drain → s.requested = true
  closed : 2 ≤ stepsOf s.drain → s.closed = true

theorem Ordered.proceed (h : s.Ordered) : s.proceed.Ordered := by
  unfold Shutdown.proceed
  cases hdrain : s.drain with
  | unbegun =>
    refine ⟨fun _ => rfl, fun hsteps => ?_⟩
    have hone : stepsOf .requested ≥ 2 := hsteps
    exact absurd hone (by decide)
  | requested => exact ⟨fun _ => h.requested (hdrain ▸ Nat.le_refl 1), fun _ => rfl⟩
  | waiting => exact h
  | resolved => exact h

theorem Ordered.occur (h : s.Ordered) : (s.occur e).Ordered := by
  cases e with
  | request => exact ⟨fun _ => rfl, h.closed⟩
  | close => exact ⟨h.requested, fun _ => rfl⟩
  | listen =>
    refine ⟨fun hsteps => ?_, fun hsteps => ?_⟩
    · exact occur_requested (e := .listen) (h.requested (s.listen_drain ▸ hsteps))
    · exact s.listen_closed.trans (h.closed (s.listen_drain ▸ hsteps))
  | proceed => exact h.proceed
  | _ => exact ⟨h.requested, h.closed⟩

theorem Ordered.after (h : s.Ordered) : (s.after w e).Ordered := by
  have hoccur := h.occur (e := e)
  refine ⟨fun hsteps => ?_, fun hsteps => ?_⟩
  · exact (tell_requested _).trans (hoccur.requested (tell_steps (s.occur e) ▸ hsteps))
  · exact (tell_closed _).trans (hoccur.closed (tell_steps (s.occur e) ▸ hsteps))

theorem Ordered.run (h : s.Ordered) : (s.run w es).Ordered :=
  run_induct (P := Ordered) (fun _ => Ordered.after) h

theorem ordered_new : Ordered {} := by
  refine ⟨fun h => ?_, fun h => ?_⟩
  · exact absurd h (by decide)
  · exact absurd h (by decide)

/-! ### What a drain is told -/

theorem drained_iff : s.drained = true ↔ s.drain = .resolved := beq_iff_eq

theorem tell_drained_iff : (s.tell w).drained = true ↔
    s.drained = true ∨ s.drain = .waiting ∧ w s.closed s.tracked = true := by
  unfold tell
  split
  · rename_i h
    exact iff_of_true rfl (Or.inr h)
  · rename_i h
    exact ⟨Or.inl, fun hor => hor.resolve_right h⟩

/-- Nobody but the tracker tells a drain that it is over, and nobody takes it back. -/
theorem occur_drained (s : Shutdown) (e : Event) : (s.occur e).drained = s.drained := by
  by_cases he : e = .proceed
  · rw [he]
    show (s.proceed.drain == .resolved) = (s.drain == .resolved)
    unfold proceed
    cases hdrain : s.drain with
    | unbegun => rfl
    | requested => rfl
    | waiting =>
      dsimp only
      rw [hdrain]
    | resolved =>
      dsimp only
      rw [hdrain]
  · exact congrArg (· == Drain.resolved) (occur_drain_of_ne he)

/-- **What is over stays so.** -/
theorem run_drained (h : s.drained = true) : (s.run w es).drained = true := by
  refine run_induct (P := fun s => s.drained = true) (fun {s e} _ h => ?_) h
  exact tell_drained_iff.mpr (Or.inl ((occur_drained s e).trans h))

/-- **A drain that is over was told so by the tracker** some time or other, while it waited. -/
theorem exists_told (unresolved : s.drained = false) (h : (s.run w es).drained = true) :
    ∃ before behind, es = before ++ behind ∧ 2 ≤ stepsOf (s.run w before).drain ∧
      w (s.run w before).closed (s.run w before).tracked = true := by
  induction es generalizing s with
  | nil =>
    rw [show s.run w [] = s from rfl, unresolved] at h
    cases h
  | cons e es ih =>
    cases hafter : (s.after w e).drained with
    | false =>
      obtain ⟨before, behind, rfl, hwaits, htells⟩ := ih hafter h
      exact ⟨e :: before, behind, rfl, hwaits, htells⟩
    | true =>
      refine ⟨[e], es, rfl, ?_⟩
      show 2 ≤ stepsOf ((s.occur e).tell w).drain ∧
        w ((s.occur e).tell w).closed ((s.occur e).tell w).tracked = true
      have hno : (s.occur e).drained ≠ true := by
        rw [occur_drained, unresolved]
        exact Bool.false_ne_true
      obtain ⟨hwaits, htells⟩ := (tell_drained_iff.mp hafter).resolve_left hno
      rw [tell_steps, hwaits, tell_closed, tell_tracked]
      exact ⟨Nat.le_refl 2, htells⟩

/-- A drain that goes on waiting has not been told that it is over. -/
def Heedful (w : Tracker) (s : Shutdown) : Prop :=
  s.drain = .waiting → w s.closed s.tracked = false

theorem heedful_tell (s : Shutdown) : (s.tell w).Heedful w := by
  unfold tell
  split
  · exact nofun
  · rename_i h
    exact fun hwaits => Bool.eq_false_iff.mpr fun htells => h ⟨hwaits, htells⟩

theorem Heedful.run (h : s.Heedful w) : (s.run w es).Heedful w :=
  run_induct (P := Heedful w) (fun _ _ => heedful_tell _) h

/-- **A drain that waits is over as soon as nobody is left.** -/
theorem Heedful.drained (faithful : w.Faithful) (heedful : s.Heedful w) (ordered : s.Ordered)
    (waits : 2 ≤ stepsOf s.drain) (nobody : s.tracked = 0) : s.drained = true := by
  rw [drained_iff]
  cases hdrain : s.drain with
  | unbegun =>
    rw [hdrain] at waits
    exact absurd waits (by decide)
  | requested =>
    rw [hdrain] at waits
    exact absurd waits (by decide)
  | waiting =>
    have htells := (faithful.tells_iff _ _).mpr ⟨ordered.closed waits, nobody⟩
    rw [heedful hdrain] at htells
    cases htells
  | resolved => rfl

/-! ### Nobody gets lost -/

/-- The names of those that an event brings. -/
def Event.names : Event → List String
  | .spawn j => [j.name]
  | _ => []

/-- The names of all jobs that are spawned. -/
def spawned (es : List Event) : List String := es.flatMap Event.names

/-- The names of all jobs, whether they have ended, have begun or wait. -/
def everybody (s : Shutdown) : List String :=
  s.ended ++ (s.running.map (·.name) ++ s.waiting.map (·.name))

theorem tell_everybody (s : Shutdown) : (s.tell w).everybody = s.everybody := by
  obtain ⟨_, h⟩ := s.tell_eq w
  rw [h]
  rfl

theorem start_everybody (s : Shutdown) : s.start.everybody.Perm s.everybody := by
  have hsplit := (List.filter_append_perm s.mayBegin s.waiting).map Job.name
  rw [List.map_append] at hsplit
  simp only [everybody, start, List.map_append, List.map_map, List.append_assoc]
  exact ((hsplit.append_left _).append_left _)

theorem finish_everybody (s : Shutdown) : s.finish.everybody.Perm s.everybody := by
  have hdue : ∀ r : RunningJob, (!decide (r.ends ≤ s.now)) = decide (s.now < r.ends) := by
    intro r
    rw [← decide_not, decide_eq_decide]
    exact Nat.not_le
  have hsplit := List.filter_append_perm (fun r : RunningJob => decide (r.ends ≤ s.now)) s.running
  simp only [hdue] at hsplit
  have hsorted := ((List.mergeSort_perm (s.running.filter fun r => decide (r.ends ≤ s.now))
    fun r r' => decide (r.ends ≤ r'.ends)).append_right _).trans hsplit
  have hnames := hsorted.map RunningJob.name
  rw [List.map_append] at hnames
  simp only [everybody, finish, List.append_assoc]
  rw [← List.append_assoc (List.map _ _)]
  exact (hnames.append_right _).append_left _

theorem leave_everybody (s : Shutdown) (k : Nat) : (s.leave k).everybody.Perm s.everybody := by
  by_cases hk : k < s.running.length
  · have hsplit := (List.getElem_cons_eraseIdx_perm hk).map RunningJob.name
    simp only [everybody, leave, List.getElem?_eq_getElem hk, Option.map_some, Option.toList_some,
      List.append_assoc]
    exact (hsplit.append_right _).append_left _
  · have hnone : s.leave k = s := by
      have hlen := Nat.le_of_not_lt hk
      unfold leave
      rw [List.eraseIdx_of_length_le hlen, List.getElem?_eq_none hlen]
      simp
    rw [hnone]

/-- **An event brings its own and loses nobody.** -/
theorem after_everybody : (s.after w e).everybody.Perm (s.everybody ++ e.names) := by
  have same : ∀ {s' : Shutdown}, s'.everybody.Perm s.everybody →
      s'.everybody.Perm (s.everybody ++ []) := by
    intro s' h
    rwa [List.append_nil]
  unfold after
  rw [tell_everybody]
  cases e with
  | spawn j => simp [occur, spawn, everybody, Event.names]
  | listen => exact same (.of_eq (by simp [occur, everybody]))
  | proceed => exact same (.of_eq (by simp [occur, everybody]))
  | start => exact same s.start_everybody
  | finish => exact same s.finish_everybody
  | leave k => exact same (s.leave_everybody k)
  | _ => exact same (.of_eq rfl)

theorem run_everybody : (s.run w es).everybody.Perm (s.everybody ++ spawned es) := by
  induction es generalizing s with
  | nil => exact .of_eq (List.append_nil _).symm
  | cons e es ih =>
    have hstep := (after_everybody (w := w) (s := s) (e := e)).append_right (spawned es)
    rw [List.append_assoc] at hstep
    exact (ih (s := s.after w e)).trans hstep

theorem tracked_eq_zero_iff :
    s.tracked = 0 ↔ s.listening = false ∧ s.waiting = [] ∧ s.running = [] := by
  unfold tracked
  rw [Nat.add_eq_zero_iff, Nat.add_eq_zero_iff, Bool.toNat_eq_zero, List.length_eq_zero_iff,
    List.length_eq_zero_iff, and_assoc]

/-- Nobody is tracked just if the listener and all that there are have ended. -/
theorem tracked_iff_ended {names : List String} (present : s.everybody.Perm names) :
    s.tracked = 0 ↔ s.listening = false ∧ names.Perm s.ended := by
  rw [tracked_eq_zero_iff]
  refine and_congr_right fun _ => ⟨fun ⟨hwaiting, hrunning⟩ => ?_, fun hended => ?_⟩
  · simp only [everybody, hwaiting, hrunning, List.map_nil, List.append_nil] at present
    exact present.symm
  · have hlength := (present.trans hended).length_eq
    simp only [everybody, List.length_append, List.length_map] at hlength
    exact ⟨List.length_eq_zero_iff.mp (by omega), List.length_eq_zero_iff.mp (by omega)⟩

/-- **A drain is over just if all had ended who had been spawned by then, at some time when it had
asked and closed the tracker.** -/
theorem drained_iff_left (faithful : w.Faithful) (es : List Event) :
    (run w {} es).drained = true ↔ ∃ before behind, es = before ++ behind ∧
      2 ≤ before.count .proceed ∧ (run w {} before).listening = false ∧
      (spawned before).Perm (run w {} before).ended := by
  have hsteps : ∀ before, 2 ≤ stepsOf (run w {} before).drain ↔ 2 ≤ before.count .proceed := by
    intro before
    rw [run_steps, show stepsOf ({} : Shutdown).drain = 0 from rfl]
    omega
  have hleft : ∀ before, (run w {} before).tracked = 0 ↔ (run w {} before).listening = false ∧
      (spawned before).Perm (run w {} before).ended := fun before => tracked_iff_ended run_everybody
  constructor
  · intro h
    obtain ⟨before, behind, rfl, hwaits, htells⟩ := exists_told rfl h
    exact ⟨before, behind, rfl, (hsteps before).mp hwaits,
      (hleft before).mp ((faithful.tells_iff _ _).mp htells).2⟩
  · rintro ⟨before, behind, rfl, hcount, hended⟩
    have heedful : Heedful w {} := nofun
    rw [run_append]
    exact run_drained (heedful.run.drained faithful ordered_new.run ((hsteps before).mpr hcount)
      ((hleft before).mpr hended))

/-! ### Everybody ends -/

/-- How long an event takes. -/
def Event.duration : Event → Nat
  | .pass ms => ms
  | _ => 0

def elapsed : List Event → Nat
  | [] => 0
  | e :: es => e.duration + elapsed es

/-- An event that spawns nobody lets nobody begin to wait, and whoever begins to work does so at
this time. -/
theorem after_cases (quiet : ∀ j, e ≠ .spawn j) : (s.after w e).now = s.now + e.duration ∧
    (∀ j ∈ (s.after w e).waiting, j ∈ s.waiting) ∧
    ∀ r ∈ (s.after w e).running, r ∈ s.running ∨ ∃ j ∈ s.waiting, r.ends = s.now + j.duration := by
  unfold after
  rw [tell_now, tell_waiting, tell_running]
  cases e with
  | spawn j => exact absurd rfl (quiet j)
  | listen =>
    exact ⟨s.listen_now, fun j hj => s.listen_waiting ▸ hj,
      fun r hr => Or.inl (s.listen_running ▸ hr)⟩
  | proceed =>
    exact ⟨s.proceed_now, fun j hj => s.proceed_waiting ▸ hj,
      fun r hr => Or.inl (s.proceed_running ▸ hr)⟩
  | start =>
    refine ⟨rfl, fun j hj => (List.mem_filter.mp hj).1, fun r hr => ?_⟩
    rcases List.mem_append.mp hr with hr | hr
    · exact Or.inl hr
    · obtain ⟨j, hj, rfl⟩ := List.mem_map.mp hr
      exact Or.inr ⟨j, (List.mem_filter.mp hj).1, rfl⟩
  | finish => exact ⟨rfl, fun _ hj => hj, fun r hr => Or.inl (List.mem_filter.mp hr).1⟩
  | leave k => exact ⟨rfl, fun _ hj => hj, fun r hr => Or.inl (List.mem_of_mem_eraseIdx hr)⟩
  | _ => exact ⟨rfl, fun _ hj => hj, fun _ hr => Or.inl hr⟩

/-- Every job takes `n` more milliseconds at most, once it has begun. -/
structure Within (n : Nat) (s : Shutdown) : Prop where
  waiting : ∀ j ∈ s.waiting, j.duration ≤ n
  running : ∀ r ∈ s.running, r.ends ≤ s.now + n

/-- All have begun and end within `n` milliseconds. -/
structure Ending (n : Nat) (s : Shutdown) : Prop where
  waiting : s.waiting = []
  running : ∀ r ∈ s.running, r.ends ≤ s.now + n

theorem Within.after (quiet : ∀ j, e ≠ .spawn j) (h : s.Within n) : (s.after w e).Within n := by
  obtain ⟨hnow, hwaiting, hrunning⟩ := after_cases (s := s) quiet
  refine ⟨fun j hj => h.waiting j (hwaiting j hj), fun r hr => ?_⟩
  rcases hrunning r hr with hr | ⟨j, hj, hends⟩
  · have hle := h.running r hr
    omega
  · have hle := h.waiting j hj
    omega

/-- With a request, all that wait begin when their turn comes. -/
theorem start_waiting (requested : s.requested = true) : s.start.waiting = [] := by
  have hmay : ∀ j, s.mayBegin j = true := by
    intro j
    simp [mayBegin, requested]
  show s.waiting.filter (!s.mayBegin ·) = []
  simp [hmay]

theorem Within.start (requested : s.requested = true) (h : s.Within n) :
    (s.after w .start).Ending n := by
  unfold Shutdown.after
  refine ⟨(tell_waiting _).trans (start_waiting requested), fun r hr => ?_⟩
  rw [tell_running] at hr
  rw [tell_now]
  rcases List.mem_append.mp hr with hr | hr
  · exact h.running r hr
  · obtain ⟨j, hj, rfl⟩ := List.mem_map.mp hr
    exact Nat.add_le_add_left (h.waiting j (List.mem_filter.mp hj).1) s.now

theorem Ending.after (quiet : ∀ j, e ≠ .spawn j) (h : s.Ending (e.duration + n)) :
    (s.after w e).Ending n := by
  obtain ⟨hnow, hwaiting, hrunning⟩ := after_cases (s := s) quiet
  rw [h.waiting] at hwaiting hrunning
  refine ⟨List.eq_nil_iff_forall_not_mem.mpr fun j hj => List.not_mem_nil (hwaiting j hj),
    fun r hr => ?_⟩
  rcases hrunning r hr with hr | ⟨j, hj, -⟩
  · have hle := h.running r hr
    omega
  · cases hj

theorem Ending.run (quiet : ∀ j, .spawn j ∉ es) (h : s.Ending (elapsed es + n)) :
    (s.run w es).Ending n := by
  induction es generalizing s with
  | nil =>
    rw [show elapsed [] + n = n from Nat.zero_add n] at h
    exact h
  | cons e es ih =>
    have hsum : elapsed (e :: es) + n = e.duration + (elapsed es + n) := Nat.add_assoc _ _ _
    rw [hsum] at h
    refine ih (fun j hj => quiet j (List.mem_cons_of_mem _ hj)) (h.after fun j he => ?_)
    exact quiet j (he ▸ List.mem_cons_self)

/-- When their time is over, those that work end. -/
theorem Ending.finish (h : s.Ending 0) :
    (s.after w .finish).waiting = [] ∧ (s.after w .finish).running = [] := by
  unfold Shutdown.after
  rw [tell_waiting, tell_running]
  refine ⟨h.waiting, List.filter_eq_nil_iff.mpr fun r hr => ?_⟩
  have hle := h.running r hr
  simpa using hle

/-- Nobody comes back. -/
theorem run_over (quiet : ∀ j, .spawn j ∉ es) (h : s.waiting = [] ∧ s.running = []) :
    (s.run w es).waiting = [] ∧ (s.run w es).running = [] := by
  refine run_induct (P := fun s => s.waiting = [] ∧ s.running = []) ?_ h
  rintro s e he ⟨hwaiting, hrunning⟩
  obtain ⟨-, hstill, hwork⟩ := after_cases (s := s) fun j hj => quiet j (hj ▸ he)
  rw [hwaiting, hrunning] at hwork
  rw [hwaiting] at hstill
  refine ⟨List.eq_nil_iff_forall_not_mem.mpr fun j hj => List.not_mem_nil (hstill j hj),
    List.eq_nil_iff_forall_not_mem.mpr fun r hr => ?_⟩
  rcases hwork r hr with hr | ⟨j, hj, -⟩
  · cases hr
  · cases hj

/-- With a request, the listener ends when its turn comes. -/
theorem listen_listening (requested : s.requested = true) : s.listen.listening = false := by
  unfold listen
  by_cases h : s.listening = true
  · simp [h, requested]
  · simp [h]

theorem listening_of_turn (requested : s.requested = true)
    (turn : s.listening = false ∨ .listen ∈ es) : (s.run w es).listening = false := by
  rcases turn with h | h
  · exact run_listening h
  · obtain ⟨before, behind, rfl⟩ := List.append_of_mem h
    have hheard : ((s.run w before).after w .listen).listening = false :=
      (tell_listening _).trans (listen_listening (run_requested requested))
    rw [run_append, run_cons]
    exact run_listening hheard

/-- Events after which nobody is left, whatever else happens: nobody is spawned, the listener has a
turn, then those that wait have one, and when the longest job is over, those that work. -/
structure Finishing (s : Shutdown) (es : List Event) : Prop where
  quiet : ∀ j, .spawn j ∉ es
  listens : s.listening = false ∨ .listen ∈ es
  ends : ∃ before during behind, es = before ++ .start :: (during ++ .finish :: behind) ∧
    s.Within (elapsed during)

/-- **Where shutdown has been requested, everybody ends.** -/
theorem Finishing.tracked (finishing : s.Finishing es) (requested : s.requested = true) :
    (s.run w es).tracked = 0 := by
  have hlistening := listening_of_turn (w := w) requested finishing.listens
  obtain ⟨before, during, behind, rfl, hwithin⟩ := finishing.ends
  have quiet := finishing.quiet
  simp only [List.mem_append, List.mem_cons, not_or] at quiet
  have hbefore : (s.run w before).Within (elapsed during) :=
    run_induct (P := Within (elapsed during))
      (fun he => Within.after fun j hj => (quiet j).1 (hj ▸ he)) hwithin
  have hbegun := (hbefore.start (w := w) (run_requested requested)).run (w := w) (n := 0)
    fun j => (quiet j).2.2.1
  have hover := run_over (w := w) (fun j => (quiet j).2.2.2.2) (hbegun.finish (w := w))
  have hrun : s.run w (before ++ .start :: (during ++ .finish :: behind)) =
      ((((s.run w before).after w .start).run w during).after w .finish).run w behind := by
    rw [run_append, run_cons, run_append, run_cons]
  rw [hrun] at hlistening ⊢
  exact tracked_eq_zero_iff.mpr ⟨hlistening, hover⟩

/-- Nobody comes back to the tracker. -/
theorem run_tracked (quiet : ∀ j, .spawn j ∉ es) (nobody : s.tracked = 0) :
    (s.run w es).tracked = 0 := by
  obtain ⟨hlistening, hover⟩ := tracked_eq_zero_iff.mp nobody
  exact tracked_eq_zero_iff.mpr ⟨run_listening hlistening, run_over quiet hover⟩

/-- Events after which the drain is over, whatever else happens: everybody ends, and the drain has
turns for the steps that it still has to take. -/
structure Fair (s : Shutdown) (es : List Event) : Prop where
  ends : s.Finishing es
  waits : 2 ≤ stepsOf s.drain + es.count .proceed

/-- **A drain that has begun comes to its end.** -/
theorem Fair.drained (faithful : w.Faithful) (fair : s.Fair es) (ordered : s.Ordered)
    (heedful : s.Heedful w) (begun : 1 ≤ stepsOf s.drain) : (s.run w es).drained = true := by
  exact heedful.run.drained faithful ordered.run (le_run_steps (Nat.le_refl 2) fair.waits)
    (fair.ends.tracked (ordered.requested begun))

/-- There are such events in every state. -/
theorem exists_fair (s : Shutdown) : ∃ es, s.Fair es := by
  obtain ⟨n, hn⟩ : ∃ n, s.Within n := by
    refine ⟨(s.waiting.map Job.duration).sum + (s.running.map RunningJob.ends).sum, ?_, ?_⟩
    · intro j hj
      have hle := List.le_sum_of_mem (List.mem_map_of_mem (f := Job.duration) hj)
      omega
    · intro r hr
      have hle := List.le_sum_of_mem (List.mem_map_of_mem (f := RunningJob.ends) hr)
      omega
  refine ⟨[.listen, .start, .pass n, .finish, .proceed, .proceed], ⟨fun j hj => ?_,
    Or.inr List.mem_cons_self, [.listen], [.pass n], [.proceed, .proceed], rfl, hn⟩, ?_⟩
  · simp at hj
  · exact Nat.le_add_left 2 _

/-! ### A drain by the clock -/

theorem lastEnd_le_iff {t : Nat} :
    s.lastEnd ≤ t ↔ s.now ≤ t ∧ ∀ r ∈ s.running, r.ends ≤ t := by
  have hfold : ∀ (rs : List RunningJob) (n : Nat),
      rs.foldl (fun t j => max t j.ends) n ≤ t ↔ n ≤ t ∧ ∀ r ∈ rs, r.ends ≤ t := by
    intro rs
    induction rs with
    | nil => simp
    | cons r rs ih =>
      intro n
      rw [List.foldl_cons, ih, Nat.max_le, List.forall_mem_cons, and_assoc]
  exact hfold s.running s.now

theorem settle_after (s : Shutdown) (e : Event) :
    (s.after w e).settle w = s.run w [e, .listen, .start, .finish] := by
  unfold settle
  rw [run_cons e]

theorem settle_now (s : Shutdown) : (s.settle w).now = s.now := by
  simp [settle, run, after, occur, start, finish]

/-- With a request, all have begun once everybody has had a turn. -/
theorem settle_waiting (requested : s.requested = true) : (s.settle w).waiting = [] := by
  have hlistened : (s.run w [.listen]).requested = true := run_requested requested
  have hbegun := (tell_waiting (w := w) _).trans (start_waiting hlistened)
  exact (tell_waiting _).trans hbegun

/-- Where nobody works any more, everybody's time is over. -/
theorem ends_le_of_settle (h : (s.settle w).running = []) : ∀ r ∈ s.running, r.ends ≤ s.now := by
  intro r hr
  have hrunning : (s.settle w).running =
      ((s.run w [.listen, .start]).running.filter ((s.run w [.listen, .start]).now < ·.ends)) :=
    tell_running _
  have hnow : (s.run w [.listen, .start]).now = s.now := by
    simp [run, after, occur, start]
  have hbegun : r ∈ (s.run w [.listen, .start]).running := by
    have hstart : (s.run w [.listen, .start]).running = (s.run w [.listen]).start.running :=
      tell_running _
    rw [hstart]
    refine List.mem_append_left _ ?_
    simpa [run, after, occur] using hr
  rw [hrunning, hnow] at h
  simpa using List.filter_eq_nil_iff.mp h r hbegun

theorem after_pass (s : Shutdown) (ms : Nat) :
    ∃ drain, s.after w (.pass ms) = { s with now := s.now + ms, drain } := tell_eq w (s.pass ms)

/-- When the longest job is over, nobody is left but the drain. -/
theorem settle_tracked (requested : s.requested = true) (begun : s.waiting = []) :
    ((s.after w (.pass (s.lastEnd - s.now))).settle w).tracked = 0 := by
  have hends := (lastEnd_le_iff (s := s)).mp (Nat.le_refl _)
  obtain ⟨drain, hpass⟩ := s.after_pass (w := w) (s.lastEnd - s.now)
  rw [hpass, Nat.add_sub_cancel' hends.1]
  have finishing : Finishing { s with now := s.lastEnd, drain } [.listen, .start, .finish] := by
    refine ⟨fun j hj => ?_, Or.inr List.mem_cons_self, [.listen], [], [], rfl, ?_, hends.2⟩
    · simp at hj
    · show ∀ j ∈ s.waiting, j.duration ≤ 0
      rw [begun]
      exact List.forall_mem_nil _
  exact finishing.tracked requested

/-- If it is over when some time has passed, this is enough for everybody. -/
theorem lastEnd_le_of_drained (faithful : w.Faithful) {ms : Nat} (unresolved : s.drained = false)
    (h : ((s.after w (.pass ms)).settle w).drained = true) : s.lastEnd ≤ s.now + ms := by
  have hnobody : ((s.after w (.pass ms)).settle w).tracked = 0 := by
    rw [settle_after] at h ⊢
    obtain ⟨before, behind, hes, -, htells⟩ := exists_told unresolved h
    have hquiet : ∀ j, Event.spawn j ∉ [.pass ms, .listen, .start, .finish] := by
      intro j hj
      simp at hj
    -- Nobody was left at some time, and nobody has come since.
    rw [hes] at hquiet ⊢
    rw [run_append]
    exact run_tracked (fun j hj => hquiet j (List.mem_append_right _ hj))
      ((faithful.tells_iff _ _).mp htells).2
  have htime := ends_le_of_settle (tracked_eq_zero_iff.mp hnobody).2.2
  obtain ⟨drain, hpass⟩ := s.after_pass (w := w) ms
  rw [hpass] at htime
  exact lastEnd_le_iff.mpr ⟨Nat.le_add_right _ _, htime⟩

theorem beginDrain_eq (s : Shutdown) :
    s.beginDrain w = s.run w [.proceed, .proceed, .listen, .start, .finish] := by
  unfold beginDrain settle
  rw [← run_append]
  simp only [List.cons_append, List.nil_append]

theorem beginDrain_now (s : Shutdown) : (s.beginDrain w).now = s.now := by
  unfold beginDrain
  rw [settle_now]
  simp [run, after, occur]

theorem drainOut_drained (faithful : w.Faithful) (ordered : s.Ordered) (heedful : s.Heedful w) :
    (s.drainOut w).drained = true := by
  have hrequested : (s.run w [.proceed, .proceed]).requested = true :=
    ordered.run.requested (le_run_steps (Nat.le_succ 1) (Nat.le_add_left 1 _))
  have hwaits : 2 ≤ stepsOf (s.beginDrain w).drain := by
    rw [beginDrain_eq]
    exact le_run_steps (Nat.le_refl 2) (Nat.le_add_left 2 _)
  have hnobody := settle_tracked (w := w) (s := s.beginDrain w) (run_requested hrequested)
    (settle_waiting hrequested)
  unfold drainOut
  dsimp only
  split
  · rename_i hdone
    exact hdone
  · rw [settle_after] at hnobody ⊢
    rw [beginDrain_eq] at hnobody hwaits ⊢
    exact heedful.run.run.drained faithful ordered.run.run
      (le_run_steps (Nat.le_refl 2) (Nat.le_trans hwaits (Nat.le_add_right _ _))) hnobody

/-- No drain could be over earlier. -/
theorem drainOut_now_le (faithful : w.Faithful) {ms : Nat}
    (h : (((s.beginDrain w).after w (.pass ms)).settle w).drained = true) :
    (s.drainOut w).now ≤ s.now + ms := by
  have hnow := s.beginDrain_now (w := w)
  unfold drainOut
  dsimp only
  split
  · omega
  · rename_i hopen
    have hends := lastEnd_le_of_drained faithful (Bool.eq_false_iff.mpr hopen) h
    obtain ⟨drain, hpass⟩ :=
      (s.beginDrain w).after_pass (w := w) ((s.beginDrain w).lastEnd - (s.beginDrain w).now)
    rw [settle_now, hpass]
    show (s.beginDrain w).now + _ ≤ _
    omega

/-! ### The drain -/

/-- **A drain waits for everybody.**  Whatever happens in whichever order, a request has been made
since the first step of the drain, and none is taken back.  A drain is over just if at some time,
when it had asked and closed the tracker, all had ended who had been spawned by then, and the
listener too; so it is over as soon as nobody is left, no sooner, and it stays so.  It comes to this
whatever else happens, and even if nothing does.  By the clock it takes no longer than it has to. -/
theorem drain_waits_for_all {w : Tracker} (faithful : w.Faithful) (es : List Event) :
    let s := run w {} es
    (.proceed ∈ es → s.requested = true) ∧
    (s.requested = true → ∀ more, (run w {} (es ++ more)).requested = true) ∧
    (s.drained = true ↔ ∃ before behind, es = before ++ behind ∧
      2 ≤ before.count .proceed ∧ (run w {} before).listening = false ∧
      (spawned before).Perm (run w {} before).ended) ∧
    (s.drained = true → ∀ more, (run w {} (es ++ more)).drained = true) ∧
    (.proceed ∈ es → (∃ more, s.Fair more) ∧
      ∀ more, s.Fair more → (run w {} (es ++ more)).drained = true) ∧
    (s.drainOut w).drained = true ∧
    ∀ ms, (((s.beginDrain w).after w (.pass ms)).settle w).drained = true →
      (s.drainOut w).now ≤ s.now + ms := by
  intro s
  have hordered : s.Ordered := ordered_new.run
  have hheedful : s.Heedful w := Heedful.run nofun
  have hbegun : .proceed ∈ es → 1 ≤ stepsOf s.drain := by
    intro h
    have hcount : 0 < es.count .proceed := List.count_pos_iff.mpr h
    exact le_run_steps (Nat.le_succ 1) (Nat.le_trans hcount (Nat.le_add_left _ _))
  refine ⟨fun h => hordered.requested (hbegun h), fun h more => ?_, drained_iff_left faithful es,
    fun h more => ?_, fun h => ⟨exists_fair _, fun more fair => ?_⟩,
    drainOut_drained faithful hordered hheedful, fun ms => drainOut_now_le faithful⟩
  · rw [run_append]
    exact run_requested h
  · rw [run_append]
    exact run_drained h
  · rw [run_append]
    exact fair.drained faithful hordered hheedful (hbegun h)

/-- One job begins before the signal and one only upon it.  While the drain waits for both, a third
comes, and the first is done before its time. -/
def overlapping : List Event :=
  [.spawn ⟨"poll", 3, false⟩, .spawn ⟨"flush", 5, true⟩, .start, .signal, .listen, .start,
    .proceed, .proceed, .spawn ⟨"retry", 0, true⟩, .leave 0]

/-- What happens then: the other two jobs end, one of them at once and one in five milliseconds. -/
def overlapped : List Event := [.start, .request, .pass 5, .finish]

theorem drain_waits_for_all_overlapping :
    Tracker.exact.Faithful ∧ .proceed ∈ overlapping ∧
    (run .exact {} overlapping).drained = false ∧
    ¬ (spawned overlapping).Perm (run .exact {} overlapping).ended ∧
    (run .exact {} overlapping).Fair overlapped ∧
    (run .exact {} (overlapping ++ overlapped)).drained = true ∧
    (run .exact {} (overlapping ++ overlapped ++ [.spawn ⟨"late", 1, false⟩])).drained = true ∧
    (run .exact {} (overlapping ++ [.signal])).requested = true ∧
    ((run .exact {} overlapping).drainOut .exact).now ≤ 5 := by
  have hbegan : .proceed ∈ overlapping := by decide
  have hopen : (run .exact {} overlapping).drained = false := by decide
  have hleft : ¬ (spawned overlapping).Perm (run .exact {} overlapping).ended := by decide
  have fair : (run .exact {} overlapping).Fair overlapped := by
    refine ⟨⟨fun j hj => ?_, Or.inl (by decide), [], [.request, .pass 5], [], rfl, ?_, ?_⟩,
      by decide⟩
    · simp [overlapped] at hj
    · exact of_decide_eq_true rfl
    · exact of_decide_eq_true rfl
  obtain ⟨hmade, hstays, -, -, hends, -, hclock⟩ :=
    drain_waits_for_all Tracker.faithful_exact overlapping
  obtain ⟨-, -, -, hlatched, -⟩ :=
    drain_waits_for_all Tracker.faithful_exact (overlapping ++ overlapped)
  have hdrained := (hends hbegan).2 _ fair
  exact ⟨Tracker.faithful_exact, hbegan, hopen, hleft, fair, hdrained, hlatched hdrained _,
    hstays (hmade hbegan) _, hclock 5 (by decide)⟩

end Shutdown

end ProposerBook
