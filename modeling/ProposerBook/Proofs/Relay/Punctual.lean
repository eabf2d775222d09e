/-
The scheduler keeps nobody waiting.

In a run a task may move at any time after it is due.  The scheduler is not so free: it lets time
pass only while nobody can move, and then up to the time at which the first task is due.  So a
task that is not overdue at the beginning never gets overdue, whoever else is there, and each of
its moves comes just when it is due (`Led`).  And the scheduler does not stop before its time:
who waits for a task sees it end (`Sound.await_ends`), and sooner or later all tasks have ended
(`exists_rest`).
-/
import ProposerBook.Proofs.Relay.Course

namespace ProposerBook

/-- The task is not overdue. -/
def Task.OnTime (t : Task) (now : Nat) : Prop := t.phase = .waiting ∨ now ≤ t.phase.due

/-- The task moves when it is due, and no later. -/
def Moment.Prompt (m : Moment) : Prop :=
  m.task.phase = .waiting ∨ m.book.now = m.task.phase.due

namespace Relay

variable {r s : Relay} {t : Task} {limit : Option Nat}

/-! ### When a task is due again -/

theorem beginLists_due {phase : Phase} (h : (r.beginLists t).2 = .goesOn phase) :
    r.now ≤ phase.due := by
  obtain ⟨log, hlog⟩ := beginLists_eq r t
  rw [hlog] at h
  split at h
  · cases h
  · cases h
    exact Nat.le_add_right _ _

theorem endValidators_due {o : Outcome} {phase : Phase}
    (h : (r.endValidators t o).2 = .goesOn phase) : r.now ≤ phase.due := by
  obtain ⟨log, hlog⟩ := endValidators_eq r t o
  rw [hlog] at h
  split at h
  · have hbegins : (({ r with log } : Relay).beginLists t).2 = .goesOn phase := h
    exact beginLists_due (r := { r with log }) hbegins
  · cases h

/-- A task that has moved is not overdue. -/
theorem move_due {phase : Phase} (h : (r.move t).2 = .goesOn phase) : r.now ≤ phase.due := by
  have hturn := turn_move r t
  generalize r.move t = x at hturn h
  cases hturn with
  | refused => exact endValidators_due h
  | begins => cases h; exact Nat.le_add_right _ _
  | asksAgain => cases h; exact Nat.le_add_right _ _
  | succeeds =>
    have hdue := endValidators_due h
    exact hdue
  | fails =>
    have hdue := endValidators_due h
    exact hdue
  | pauses => cases h; exact Nat.le_add_right _ _
  | beginsLists => exact beginLists_due h
  | asksListsAgain => cases h; exact Nat.le_add_right _ _
  | listsSucceed => rw [endLists_ends] at h; cases h
  | listsFail => rw [endLists_ends] at h; cases h
  | listsPause => cases h; exact Nat.le_add_right _ _

/-! ### One turn -/

theorem firstReady_isSome {now : Nat} {ts : List Task} (h : t ∈ ts) (due : t.phase.due ≤ now) :
    (firstReady now ts).isSome = true := by
  induction ts with
  | nil => cases h
  | cons u us ih =>
    unfold firstReady
    by_cases hu : u.phase.due ≤ now
    · rw [if_pos hu]
      rfl
    · rw [if_neg hu, Option.isSome_map]
      rcases List.mem_cons.mp h with rfl | h
      · exact absurd due hu
      · exact ih h

theorem turn?_isSome (h : t ∈ r.tasks) (due : t.phase.due ≤ r.now) : r.turn?.isSome = true := by
  rw [turn?_eq, Option.isSome_map]
  exact firstReady_isSome h due

/-- As long as a task is there, the scheduler goes on. -/
theorem tick?_isSome (h : r.tasks ≠ []) : ∃ s, r.tick? none = some s := by
  unfold tick?
  cases hturn : r.turn? with
  | some s => exact ⟨s, rfl⟩
  | none =>
    cases hdue : r.nextDue? with
    | none =>
      have hnone : r.tasks.map (fun t => t.phase.due) = [] := List.min?_eq_none_iff.mp hdue
      exact absurd (List.map_eq_nil_iff.mp hnone) h
    | some due =>
      obtain ⟨hmem, -⟩ := List.min?_eq_some_iff.mp hdue
      obtain ⟨t, ht, rfl⟩ := List.mem_map.mp hmem
      exact Option.isSome_iff_exists.mp
        (turn?_isSome (r := r.waitUntil t.phase.due) ht (Nat.le_max_right _ _))

/-- With a turn of the scheduler time may pass, and then a task moves.  Nobody gets overdue. -/
structure Ticks (r : Relay) (ms : Nat) (before : List Task) (t : Task) (after : List Task)
    (s : Relay) : Prop where
  tasks : r.tasks = before ++ t :: after
  due : t.phase.due ≤ r.now + ms
  leads : s = (r.occur (.pass ms)).moved before t after
  onTime : ∀ u ∈ r.tasks, u.OnTime r.now → u.OnTime (r.now + ms)

theorem ticks_of_tick? (tick : r.tick? limit = some s) :
    ∃ ms before t after, r.Ticks ms before t after s := by
  unfold tick? at tick
  split at tick
  · rename_i hturn
    cases tick
    rw [turn?_eq, Option.map_eq_some_iff] at hturn
    obtain ⟨⟨before, t, after⟩, hready, rfl⟩ := hturn
    exact ⟨0, before, t, after, firstReady_eq hready, firstReady_due hready, rfl, fun _ _ h => h⟩
  · split at tick
    · cases tick
    · rename_i due hnext
      split at tick
      · rw [waitUntil_eq, turn?_eq, Option.map_eq_some_iff] at tick
        obtain ⟨⟨before, t, after⟩, hready, rfl⟩ := tick
        refine ⟨due - r.now, before, t, after, firstReady_eq hready, firstReady_due hready, rfl, ?_⟩
        intro u hu honTime
        refine honTime.imp_right fun hlate => ?_
        have hearliest : due ≤ u.phase.due :=
          (List.min?_eq_some_iff.mp hnext).2 _ (List.mem_map_of_mem hu)
        omega
      · cases tick

/-! ### Many turns -/

/-- These events are the work of the scheduler. -/
structure Led (r : Relay) (es : List Event) : Prop where
  /-- Nobody calls. -/
  still : ∀ c, .call c ∉ es
  prompt : ∀ t ∈ r.tasks, t.OnTime r.now → ∀ m ∈ r.course t.id es, m.Prompt

theorem led_nil (r : Relay) : r.Led [] :=
  ⟨fun _ hc => absurd hc List.not_mem_nil, fun _ _ _ _ hm => absurd hm List.not_mem_nil⟩

theorem course_pass (r : Relay) (id ms : Nat) (es : List Event) :
    r.course id (.pass ms :: es) = (r.occur (.pass ms)).course id es :=
  course_cons_of_none rfl

variable {ms : Nat} {before after : List Task} {es : List Event}

theorem Ticks.ready (h : r.Ticks ms before t after s) (sound : Sound r) :
    (r.occur (.pass ms)).ready? t.id = some (before, t, after) :=
  ready?_of_tasks h.tasks (fun u hu => sound.others h.tasks u (List.mem_append_left _ hu)) h.due

theorem Ticks.occur (h : r.Ticks ms before t after s) (sound : Sound r) :
    (r.occur (.pass ms)).occur (.move t.id) = s := by
  rw [occur_of_ready (h.ready sound), h.leads]

theorem Ticks.sound (h : r.Ticks ms before t after s) (sound : Sound r) : Sound s := by
  rw [← h.occur sound]
  exact sound_occur (sound_occur sound (.pass ms)) _

theorem Ticks.now (h : r.Ticks ms before t after s) : s.now = r.now + ms := by
  rw [h.leads, moved_eq]
  exact (move_settings _ t).2.2

/-- The task that moves has its move in its course. -/
theorem Ticks.course_self (h : r.Ticks ms before t after s) (sound : Sound r) (es : List Event) :
    r.course t.id (.pass ms :: .move t.id :: es)
      = ⟨r.occur (.pass ms), t⟩ :: s.course t.id es := by
  rw [course_pass, course_cons_of_mover (mover?_of_ready (h.ready sound)), h.occur sound]

theorem Ticks.course_other (h : r.Ticks ms before t after s) (sound : Sound r) {u : Task}
    (other : u.id ≠ t.id) (es : List Event) :
    r.course u.id (.pass ms :: .move t.id :: es) = s.course u.id es := by
  have hstill : (r.occur (.pass ms)).mover? u.id (.move t.id) = none :=
    if_neg other.symm
  rw [course_pass, course_cons_of_none hstill, h.occur sound]

/-- **One more turn of the scheduler.** -/
theorem Ticks.led (h : r.Ticks ms before t after s) (sound : Sound r) (led : s.Led es) :
    r.Led (.pass ms :: .move t.id :: es) := by
  refine ⟨?_, ?_⟩
  · intro c hc
    rcases List.mem_cons.mp hc with hc | hc
    · cases hc
    · rcases List.mem_cons.mp hc with hc | hc
      · cases hc
      · exact led.still c hc
  · intro u hu honTime
    have honTime' := h.onTime u hu honTime
    rw [← h.now] at honTime'
    have hpassed := sound_occur sound (.pass ms)
    by_cases hid : u.id = t.id
    · have ht : t ∈ r.tasks := by
        rw [h.tasks]
        exact List.mem_append_right _ List.mem_cons_self
      obtain rfl : u = t := sound.eq_of_id ht hu hid
      rw [h.course_self sound]
      have hnow := h.now
      intro m hm
      rcases List.mem_cons.mp hm with rfl | hm
      · refine honTime'.imp_right fun hlate => ?_
        have hdue := h.due
        show r.now + ms = u.phase.due
        omega
      · cases hp : ((r.occur (.pass ms)).move u).2 with
        | ends o =>
          have hgone := (hpassed.occur_move_ends (h.ready sound) hp).1
          rw [h.occur sound] at hgone
          rw [hgone.course (h.sound sound)] at hm
          cases hm
        | goesOn phase =>
          have hremains := (occur_move_goesOn (h.ready sound) hp).1
          rw [h.occur sound] at hremains
          refine led.prompt _ hremains (Or.inr ?_) m hm
          rw [hnow]
          exact move_due hp
    · rw [h.course_other sound hid]
      have hstill : (r.occur (.pass ms)).mover? u.id (.move t.id) = none :=
        if_neg fun hc => hid hc.symm
      refine led.prompt u ?_ honTime'
      rcases hpassed.stays (t := u) hu hstill with hstays | ⟨hcall, -⟩
      · rwa [h.occur sound] at hstays
      · cases hcall

theorem Ticks.run (h : r.Ticks ms before t after s) (sound : Sound r) (es : List Event) :
    r.run (.pass ms :: .move t.id :: es) = s.run es := by
  rw [run_cons, run_cons, h.occur sound]

/-- **What happens until a time is the work of the scheduler.** -/
theorem Sound.runUntil_led (h : Sound r) (limit : Nat) :
    ∃ es, r.runUntil limit = r.run es ∧ r.Led es := by
  induction r using runUntil.induct limit with
  | case1 r s hs ih =>
    obtain ⟨ms, before, t, after, hticks⟩ := ticks_of_tick? hs
    obtain ⟨es, hrun, hled⟩ := ih (hticks.sound h)
    refine ⟨_, ?_, hticks.led h hled⟩
    rw [runUntil_of_tick hs, hrun, hticks.run h]
  | case2 r hs => exact ⟨[], runUntil_of_rest hs, led_nil r⟩

/-! ### All tasks end -/

/-- **A task that is awaited ends, and with its end the waiting is over.** -/
theorem Sound.await_ends (h : Sound r) (ht : t ∈ r.tasks) (undone : r.outcome? t.id = none) :
    ∃ es m o, r.await t.id = r.run es ∧ r.Led es ∧ m ∈ r.course t.id es ∧ m.progress = .ends o ∧
      (r.await t.id).outcome? t.id = some o ∧ (r.await t.id).now = m.book.now := by
  generalize hid : t.id = id at undone ⊢
  induction r using Relay.await.induct id generalizing t with
  | case1 r hdone =>
    rw [undone] at hdone
    cases hdone
  | case2 r hdone s hs ih =>
    obtain ⟨ms, before, u, after, hticks⟩ := ticks_of_tick? hs
    have hsound := hticks.sound h
    have hpassed := sound_occur h (.pass ms)
    subst hid
    -- What the scheduler does later comes after this turn.
    have hlater : ∀ v ∈ s.tasks, v.id = t.id → s.outcome? t.id = none →
        (∀ es, ∀ m ∈ s.course t.id es, m ∈ r.course t.id (.pass ms :: .move u.id :: es)) →
        ∃ es m o, r.await t.id = r.run es ∧ r.Led es ∧ m ∈ r.course t.id es ∧
          m.progress = .ends o ∧ (r.await t.id).outcome? t.id = some o ∧
          (r.await t.id).now = m.book.now := by
      intro v hv hvid hnone hcourse
      obtain ⟨es, m, o, hrun, hled, hm, hrest⟩ := ih hsound hv hvid hnone
      rw [await_of_tick hdone hs]
      exact ⟨_, m, o, hrun.trans (hticks.run h es).symm, hticks.led h hled, hcourse es m hm, hrest⟩
    by_cases hut : t.id = u.id
    · have hu : u ∈ r.tasks := by
        rw [hticks.tasks]
        exact List.mem_append_right _ List.mem_cons_self
      obtain rfl : t = u := h.eq_of_id hu ht hut
      cases hp : ((r.occur (.pass ms)).move t).2 with
      | ends o =>
        obtain ⟨-, hrecord⟩ := hpassed.occur_move_ends (hticks.ready h) hp
        rw [hticks.occur h] at hrecord
        have hstops : s.await t.id = s := await_of_done (by rw [hrecord]; rfl)
        rw [await_of_tick hdone hs, hstops]
        refine ⟨_, ⟨r.occur (.pass ms), t⟩, o, (hticks.run h []).symm, hticks.led h (led_nil s), ?_,
          hp, hrecord, hticks.now⟩
        rw [hticks.course_self h]
        exact List.mem_cons_self
      | goesOn phase =>
        obtain ⟨hremains, hrecord⟩ := occur_move_goesOn (hticks.ready h) hp
        rw [hticks.occur h] at hremains hrecord
        refine hlater _ hremains rfl (hrecord.trans undone) ?_
        intro es m hm
        rw [hticks.course_self h]
        exact List.mem_cons_of_mem _ hm
    · have hstill : (r.occur (.pass ms)).mover? t.id (.move u.id) = none :=
        if_neg fun hc => hut hc.symm
      have hrecord := outcome?_occur_of_none hstill
      rw [hticks.occur h] at hrecord
      refine hlater t ?_ rfl (hrecord.trans undone) ?_
      · rcases hpassed.stays (t := t) ht hstill with hstays | ⟨hcall, -⟩
        · rwa [hticks.occur h] at hstays
        · cases hcall
      · intro es m hm
        rwa [hticks.course_other h hut]
  | case3 r _ hs =>
    obtain ⟨s, hs'⟩ := tick?_isSome (List.ne_nil_of_mem ht)
    rw [hs] at hs'
    cases hs'

/-- **Who is first, and has not moved so far, moves at once**, and from then on when it is due. -/
theorem Sound.await_first (h : Sound r) {rest : List Task} (tasks : r.tasks = t :: rest)
    (waits : t.phase = .waiting) (undone : r.outcome? t.id = none) :
    ∃ es ms m o, r.await t.id = r.run es ∧ r.course t.id es = ⟨r, t⟩ :: ms ∧
      (∀ u ∈ ms, u.Prompt) ∧ m ∈ ⟨r, t⟩ :: ms ∧ m.progress = .ends o ∧
      (r.await t.id).outcome? t.id = some o ∧ (r.await t.id).now = m.book.now := by
  have hdue : t.phase.due ≤ r.now := by
    rw [waits]
    exact Nat.zero_le _
  have hready : r.ready? t.id = some ([], t, rest) := h.ready tasks hdue
  have hfirst : firstReady r.now r.tasks = some ([], t, rest) := by
    rw [tasks]
    unfold firstReady
    exact if_pos hdue
  have htick : r.tick? none = some (r.occur (.move t.id)) := by
    unfold tick?
    rw [turn?_eq, hfirst, occur_of_ready hready]
    rfl
  have hawait : r.await t.id = (r.occur (.move t.id)).await t.id :=
    await_of_tick (by rw [undone]; exact Bool.false_ne_true) htick
  have hnow : (r.occur (.move t.id)).now = r.now := by
    rw [occur_of_ready hready, moved_eq]
    exact (move_settings r t).2.2
  cases hp : (r.move t).2 with
  | ends o =>
    obtain ⟨hgone, hrecord⟩ := h.occur_move_ends hready hp
    have hstops : r.await t.id = r.run [.move t.id] := by
      rw [hawait, await_of_done (by rw [hrecord]; rfl)]
      rfl
    refine ⟨[.move t.id], [], ⟨r, t⟩, o, hstops, ?_, ?_, List.mem_cons_self, hp, ?_, ?_⟩
    · rw [course_cons_of_mover (mover?_of_ready hready)]
      rfl
    · intro u hu
      cases hu
    · rw [hstops]
      exact hrecord
    · rw [hstops]
      exact hnow
  | goesOn phase =>
    obtain ⟨hremains, hrecord⟩ := occur_move_goesOn hready hp
    obtain ⟨es, m, o, hrun, hled, hm, hend, hrest⟩ :=
      (sound_occur h _).await_ends hremains (hrecord.trans undone)
    refine ⟨.move t.id :: es, _, m, o, ?_, ?_, ?_, List.mem_cons_of_mem _ hm, hend, ?_⟩
    · rw [hawait, run_cons]
      exact hrun
    · exact course_cons_of_mover (mover?_of_ready hready)
    · refine hled.prompt _ hremains (Or.inr ?_)
      rw [hnow]
      exact move_due hp
    · rw [hawait]
      exact hrest

/-- A turn that comes without a limit also comes with a late one. -/
theorem tick?_of_late (tick : r.tick? none = some s) :
    ∃ limit, ∀ later, limit ≤ later → r.tick? (some later) = some s := by
  unfold tick? at tick ⊢
  cases hturn : r.turn? with
  | some q =>
    rw [hturn] at tick
    exact ⟨0, fun _ _ => tick⟩
  | none =>
    rw [hturn] at tick
    cases hdue : r.nextDue? with
    | none =>
      rw [hdue] at tick
      cases tick
    | some due =>
      rw [hdue] at tick
      refine ⟨due, fun later hlater => ?_⟩
      have hall : (some later).all (fun x => decide (due ≤ x)) = true := decide_eq_true hlater
      simp only [hall, if_true]
      exact tick

/-- **If enough time passes, every task ends.** -/
theorem exists_rest (r : Relay) :
    ∃ limit, ∀ later, limit ≤ later → (r.runUntil later).tasks = [] := by
  -- By induction on the weight, which each turn lowers.  The first turn comes if the limit is late
  -- enough, and from then on a limit does that suits the book after it.
  generalize hweight : r.weight = n
  induction n using Nat.strongRecOn generalizing r with
  | ind n ih =>
    by_cases hnone : r.tasks = []
    · refine ⟨0, fun later _ => ?_⟩
      have hrest : r.tick? (some later) = none := by
        cases htick : r.tick? (some later) with
        | none => rfl
        | some s =>
          obtain ⟨ms, before, t, after, hticks⟩ := ticks_of_tick? htick
          rw [hticks.tasks] at hnone
          cases before <;> cases hnone
      rw [runUntil_of_rest hrest, hnone]
    · obtain ⟨s, hs⟩ := tick?_isSome hnone
      obtain ⟨first, hfirst⟩ := tick?_of_late hs
      obtain ⟨limit, hlimit⟩ := ih s.weight (hweight ▸ tick?_weight hs) s rfl
      refine ⟨max first limit, fun later hlater => ?_⟩
      rw [runUntil_of_tick (hfirst later (by omega))]
      exact hlimit later (by omega)

end Relay

end ProposerBook
