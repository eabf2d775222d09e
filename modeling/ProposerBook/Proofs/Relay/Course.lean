/-
What one task goes through.

In a run the moves of many tasks are mixed, with other events in between.  `course` takes out the
moves of one task, each with the book that the task finds.  A task changes with its own moves only,
so each move starts from where the one before it has led; and there are a few things that nobody
else can touch between two moves of a task (`Meanwhile`).  `Thread` has both.  With `thread_course`
what is to be shown of a task in whatever company goes by induction on its own moves.
-/
import ProposerBook.Proofs.Relay.Cache

namespace ProposerBook

/-- A task, and the book that it finds as it moves. -/
structure Moment where
  book : Relay
  task : Task

namespace Moment

/-- What becomes of the book. -/
def after (m : Moment) : Relay := (m.book.move m.task).1

/-- What becomes of the task. -/
def progress (m : Moment) : Progress := (m.book.move m.task).2

end Moment

namespace Relay

/-! ### The moves of one task -/

/-- The task named `id`, if it moves with `e`. -/
def mover? (r : Relay) (id : Nat) : Event → Option Task
  | .move i => if i = id then (r.ready? id).map fun x => x.2.1 else none
  | _ => none

/-- The moves of the task named `id` while `es` happen. -/
def course (r : Relay) (id : Nat) : List Event → List Moment
  | [] => []
  | e :: es =>
    match r.mover? id e with
    | some t => ⟨r, t⟩ :: (r.occur e).course id es
    | none => (r.occur e).course id es

variable {r s : Relay} {t : Task} {e : Event} {es : List Event} {id : Nat}

theorem mover?_eq_some (h : r.mover? id e = some t) :
    e = .move id ∧ ∃ before after, r.ready? id = some (before, t, after) := by
  cases e with
  | move i =>
    unfold mover? at h
    simp only at h
    by_cases hid : i = id
    · rw [if_pos hid, Option.map_eq_some_iff] at h
      obtain ⟨⟨before, u, after⟩, hready, rfl⟩ := h
      exact ⟨congrArg _ hid, before, after, hready⟩
    · rw [if_neg hid] at h
      cases h
  | _ => cases h

theorem mover?_of_ready {before after : List Task} (h : r.ready? id = some (before, t, after)) :
    r.mover? id (.move id) = some t := by
  show (if id = id then (r.ready? id).map fun x => x.2.1 else none) = some t
  rw [if_pos rfl, h]
  rfl

theorem course_cons_of_mover (h : r.mover? id e = some t) :
    r.course id (e :: es) = ⟨r, t⟩ :: (r.occur e).course id es := by
  rw [course, h]

theorem course_cons_of_none (h : r.mover? id e = none) :
    r.course id (e :: es) = (r.occur e).course id es := by
  rw [course, h]

/-- A task that moves is there, and its time has come. -/
theorem mem_course {m : Moment} (h : m ∈ r.course id es) :
    (∃ ds, m.book = r.run ds) ∧ m.task ∈ m.book.tasks ∧ m.task.id = id ∧
      m.task.phase.due ≤ m.book.now := by
  induction es generalizing r with
  | nil => cases h
  | cons e es ih =>
    have hlater : m ∈ (r.occur e).course id es → (∃ ds, m.book = r.run ds) ∧
        m.task ∈ m.book.tasks ∧ m.task.id = id ∧ m.task.phase.due ≤ m.book.now := by
      intro hm
      obtain ⟨⟨ds, hds⟩, hrest⟩ := ih hm
      exact ⟨⟨e :: ds, hds⟩, hrest⟩
    cases hmover : r.mover? id e with
    | none =>
      rw [course_cons_of_none hmover] at h
      exact hlater h
    | some t =>
      rw [course_cons_of_mover hmover] at h
      rcases List.mem_cons.mp h with rfl | hm
      · obtain ⟨-, before, after, hready⟩ := mover?_eq_some hmover
        obtain ⟨-, hid, hdue⟩ := ready?_eq_some hready
        exact ⟨⟨[], rfl⟩, mem_of_ready hready, hid, hdue⟩
      · exact hlater hm

theorem Sound.run (h : Sound r) (es : List Event) : Sound (r.run es) := by
  induction es generalizing r with
  | nil => exact h
  | cons e es ih => exact ih (sound_occur h e)

theorem Sound.at_course (h : Sound r) {m : Moment} (hm : m ∈ r.course id es) :
    Sound m.book ∧ m.task ∈ m.book.tasks := by
  obtain ⟨⟨ds, hbook⟩, hmem, -, -⟩ := mem_course hm
  exact ⟨hbook ▸ h.run ds, hmem⟩

/-! ### What stays as it is -/

theorem serve_frame (r : Relay) (c : Call) : (r.serve c).settings = r.settings ∧
    (r.serve c).retryDelay = r.retryDelay ∧ r.nextId ≤ (r.serve c).nextId := by
  have hserved := served_serve r c
  generalize r.serve c = s at hserved ⊢
  cases hserved with
  | answers => exact ⟨rfl, rfl, Nat.le_refl _⟩
  | hands => exact ⟨rfl, rfl, Nat.le_refl _⟩
  | begins => exact ⟨rfl, rfl, Nat.le_succ _⟩
  | drops id => exact ⟨rfl, rfl, Nat.le_refl _⟩

/-- Nothing that happens touches the settings or the length of a pause, or takes back a name. -/
theorem occur_frame (r : Relay) (e : Event) : (r.occur e).settings = r.settings ∧
    (r.occur e).retryDelay = r.retryDelay ∧ r.nextId ≤ (r.occur e).nextId := by
  cases e with
  | call c =>
    show (if r.isOpening then r else r.serve c).settings = r.settings ∧
      (if r.isOpening then r else r.serve c).retryDelay = r.retryDelay ∧
        r.nextId ≤ (if r.isOpening then r else r.serve c).nextId
    by_cases hopening : r.isOpening = true
    · rw [if_pos hopening]
      exact ⟨rfl, rfl, Nat.le_refl _⟩
    · rw [if_neg hopening]
      exact serve_frame r c
  | move id =>
    unfold occur
    simp only
    split
    · exact ⟨rfl, rfl, Nat.le_refl _⟩
    · rename_i before t after _
      obtain ⟨cache, syncing, registry, remote, log, hmove⟩ := move_frame r t
      rw [moved_eq, hmove]
      exact ⟨rfl, rfl, Nat.le_refl _⟩
  | pass ms => exact ⟨rfl, rfl, Nat.le_refl _⟩
  | answers remote => exact ⟨rfl, rfl, Nat.le_refl _⟩
  | register slot p => exact ⟨rfl, rfl, Nat.le_refl _⟩
  | unregister slot => exact ⟨rfl, rfl, Nat.le_refl _⟩
  | registry o => exact ⟨rfl, rfl, Nat.le_refl _⟩

/-! ### Those that are gone -/

/-- The task that had this name is not there any more. -/
structure Gone (r : Relay) (id : Nat) : Prop where
  absent : ∀ u ∈ r.tasks, u.id ≠ id
  named : id < r.nextId

/-- Nobody comes back. -/
theorem Gone.occur (h : r.Gone id) (sound : Sound r) (e : Event) : (r.occur e).Gone id := by
  refine ⟨?_, Nat.lt_of_lt_of_le h.named (occur_frame r e).2.2⟩
  intro u hu
  rcases sound.mem_occur hu with ⟨hu, -⟩ | ⟨c, -, hbegun⟩ | ⟨before, v, after, -, hready, hu⟩
  · exact h.absent u hu
  · have hnext : u.id = r.nextId := by cases hbegun <;> rfl
    have hnamed := h.named
    omega
  · rw [(mem_remains hu).2.1]
    exact h.absent v (mem_of_ready hready)

theorem Gone.mover? (h : r.Gone id) (e : Event) : r.mover? id e = none := by
  cases hmover : r.mover? id e with
  | none => rfl
  | some t =>
    obtain ⟨-, before, after, hready⟩ := mover?_eq_some hmover
    exact absurd (ready?_eq_some hready).2.1 (h.absent t (mem_of_ready hready))

theorem Gone.course (h : r.Gone id) (sound : Sound r) (es : List Event) :
    r.course id es = [] := by
  induction es generalizing r with
  | nil => rfl
  | cons e es ih =>
    rw [course_cons_of_none (h.mover? e)]
    exact ih (h.occur sound e) (sound_occur sound e)

theorem serve_outcomes (r : Relay) (c : Call) : (r.serve c).outcomes = r.outcomes := by
  have hserved := served_serve r c
  generalize r.serve c = s at hserved ⊢
  cases hserved with
  | answers => rfl
  | hands => rfl
  | begins => rfl
  | drops id => rfl

theorem occur_outcomes_of_call (r : Relay) (c : Call) :
    (r.occur (.call c)).outcomes = r.outcomes := by
  show (if r.isOpening then r else r.serve c).outcomes = r.outcomes
  by_cases hopening : r.isOpening = true
  · rw [if_pos hopening]
  · rw [if_neg hopening, serve_outcomes]

/-- Only the task itself puts on record how it has ended. -/
theorem outcome?_occur_of_none (still : r.mover? id e = none) :
    (r.occur e).outcome? id = r.outcome? id := by
  cases e with
  | call c => exact congrArg (List.lookup id) (occur_outcomes_of_call r c)
  | move i =>
    cases hready : r.ready? i with
    | none =>
      unfold occur
      simp only [hready]
    | some x =>
      obtain ⟨before, t, after⟩ := x
      have hother : t.id ≠ id := by
        rintro rfl
        obtain rfl := (ready?_eq_some hready).2.1
        rw [mover?_of_ready hready] at still
        cases still
      obtain ⟨cache, syncing, registry, remote, log, hmove⟩ := move_frame r t
      rw [occur_of_ready hready, moved_eq, hmove]
      cases (r.move t).2 with
      | goesOn phase => rfl
      | ends o =>
        show List.lookup id ((t.id, o) :: r.outcomes) = List.lookup id r.outcomes
        rw [List.lookup_cons, beq_false_of_ne hother.symm]
  | pass ms => rfl
  | answers remote => rfl
  | register slot p => rfl
  | unregister slot => rfl
  | registry o => rfl

/-- How a task has ended stays on record. -/
theorem Gone.outcome?_run (h : r.Gone id) (sound : Sound r) (es : List Event) :
    (r.run es).outcome? id = r.outcome? id := by
  induction es generalizing r with
  | nil => rfl
  | cons e es ih =>
    rw [run_cons, ih (h.occur sound e) (sound_occur sound e), outcome?_occur_of_none (h.mover? e)]

/-- What becomes of the name of a task that moves. -/
theorem Sound.occur_move_ends (h : Sound r) {before after : List Task} {o : Outcome}
    (ready : r.ready? t.id = some (before, t, after)) (ends : (r.move t).2 = .ends o) :
    (r.occur (.move t.id)).Gone t.id ∧ (r.occur (.move t.id)).outcome? t.id = some o := by
  obtain ⟨htasks, -, -⟩ := ready?_eq_some ready
  have hkept := (occur_frame r (.move t.id)).2.2
  rw [occur_of_ready ready] at hkept ⊢
  refine ⟨⟨?_, Nat.lt_of_lt_of_le (h.running t (mem_of_ready ready)) hkept⟩, ?_⟩
  · intro v hv
    rcases mem_moved hv with hv | hv
    · exact h.others htasks v hv
    · rw [ends] at hv
      cases hv
  · rw [moved_eq, ends]
    exact List.lookup_cons_self

/-- Where a move leads a task that goes on. -/
theorem occur_move_goesOn {before after : List Task}
    (ready : r.ready? t.id = some (before, t, after)) {phase : Phase}
    (goesOn : (r.move t).2 = .goesOn phase) :
    ({ t with phase } : Task) ∈ (r.occur (.move t.id)).tasks ∧
      (r.occur (.move t.id)).outcome? t.id = r.outcome? t.id := by
  obtain ⟨cache, syncing, registry, remote, log, hmove⟩ := move_frame r t
  rw [occur_of_ready ready, moved_eq, goesOn, hmove]
  exact ⟨List.mem_append_right _ List.mem_cons_self, rfl⟩

/-! ### Between two moves -/

/-- A task that does not move stays as it is, unless it is dropped. -/
theorem Sound.stays (h : Sound r) (ht : t ∈ r.tasks) (still : r.mover? t.id e = none) :
    t ∈ (r.occur e).tasks ∨ e = .call (.abort t.id) ∧ (r.occur e).Gone t.id := by
  cases e with
  | call c =>
    have hcall : r.occur (.call c) = if r.isOpening then r else r.serve c := rfl
    by_cases hopening : r.isOpening = true
    · rw [hcall, if_pos hopening]
      exact Or.inl ht
    · rw [hcall, if_neg hopening]
      have hserved := served_serve r c
      generalize r.serve c = s at hserved ⊢
      cases hserved with
      | answers => exact Or.inl ht
      | hands => exact Or.inl ht
      | begins _ awaited slot retries =>
        exact Or.inl ((begin_perm r awaited _ slot retries).mem_iff.mpr (List.mem_cons_of_mem _ ht))
      | drops id =>
        rw [abort_eq]
        by_cases hid : t.id = id
        · refine Or.inr ⟨by rw [hid], ?_, h.running t ht⟩
          intro u hu
          rw [hid]
          simpa using (List.mem_filter.mp hu).2
        · exact Or.inl (List.mem_filter.mpr ⟨ht, bne_iff_ne.mpr hid⟩)
  | move id =>
    refine Or.inl ?_
    unfold occur
    simp only
    split
    · exact ht
    · rename_i before u after hready
      obtain ⟨htasks, hid, -⟩ := ready?_eq_some hready
      have hother : t ≠ u := by
        rintro rfl
        rw [← hid] at hready still
        rw [mover?_of_ready hready] at still
        cases still
      rw [htasks] at ht
      rw [moved_eq]
      rcases List.mem_append.mp ht with ht | ht
      · exact List.mem_append_left _ ht
      · rcases List.mem_cons.mp ht with ht | ht
        · exact absurd ht hother
        · exact List.mem_append_right _ (List.mem_append_right _ ht)
  | pass ms => exact Or.inl ht
  | answers remote => exact Or.inl ht
  | register slot p => exact Or.inl ht
  | unregister slot => exact Or.inl ht
  | registry o => exact Or.inl ht

/-- What the task `t` can rely on while others are at work, from `r` to `s`. -/
structure Meanwhile (t : Task) (r s : Relay) : Prop where
  settings : s.settings = r.settings
  retryDelay : s.retryDelay = r.retryDelay
  /-- Nobody else can succeed while `t` is in a sync. -/
  cache : t.syncs = true → s.cache = r.cache

theorem Meanwhile.refl (t : Task) (r : Relay) : Meanwhile t r r := ⟨rfl, rfl, fun _ => rfl⟩

theorem Meanwhile.trans {q : Relay} (h : Meanwhile t q r) (h' : Meanwhile t r s) :
    Meanwhile t q s :=
  ⟨h'.settings.trans h.settings, h'.retryDelay.trans h.retryDelay,
    fun hsyncs => (h'.cache hsyncs).trans (h.cache hsyncs)⟩

theorem Sound.meanwhile (h : Sound r) (ht : t ∈ r.tasks) (still : r.mover? t.id e = none) :
    Meanwhile t r (r.occur e) := by
  obtain ⟨hsettings, hdelay, -⟩ := occur_frame r e
  refine ⟨hsettings, hdelay, ?_⟩
  intro hsyncs
  rcases h.occur_cache e with ⟨slot, rs, ⟨u, hu, hdue, rfl, -, hbrings⟩, -⟩ | ⟨-, hcache⟩
  · -- Who succeeds is in a sync too, and so it is `t` that moves.
    have hut : u = t := h.syncs_unique hu ht (syncs_of_asks (asks_of_brings hbrings)) hsyncs
    obtain ⟨before, after, htasks⟩ := List.append_of_mem hu
    rw [← hut, mover?_of_ready (h.ready htasks hdue)] at still
    cases still
  · exact hcache

/-! ### The thread of a task -/

/-- The moves of a task that stands as `t` in the book `r`. -/
inductive Thread : Relay → Task → List Moment → Prop
  /-- It has not moved so far, or has been dropped. -/
  | rests (r : Relay) (t : Task) : Thread r t []
  | ends {r s : Relay} {t : Task} {o : Outcome} (meanwhile : Meanwhile t r s)
      (ends : (s.move t).2 = .ends o) : Thread r t [⟨s, t⟩]
  | goesOn {r s : Relay} {t : Task} {phase : Phase} {ms : List Moment}
      (meanwhile : Meanwhile t r s) (moves : (s.move t).2 = .goesOn phase)
      (rest : Thread (s.move t).1 { t with phase } ms) : Thread r t (⟨s, t⟩ :: ms)

theorem Thread.since {q : Relay} {ms : List Moment} (h : Meanwhile t q r)
    (thread : Thread r t ms) : Thread q t ms := by
  cases thread with
  | rests => exact .rests q t
  | ends meanwhile ends => exact .ends (h.trans meanwhile) ends
  | goesOn meanwhile moves rest => exact .goesOn (h.trans meanwhile) moves rest

/-- Of the book after a move only what a task relies on matters to it. -/
theorem Thread.of_moved {before after : List Task} {u : Task} {ms : List Moment}
    (thread : Thread (r.moved before t after) u ms) : Thread (r.move t).1 u ms :=
  Thread.since (r := r.moved before t after) ⟨rfl, rfl, fun _ => rfl⟩ thread

/-- **The moves of a task follow each other**, whatever others do in between. -/
theorem thread_course (h : Sound r) (ht : t ∈ r.tasks) (es : List Event) :
    Thread r t (r.course t.id es) := by
  induction es generalizing r t with
  | nil => exact .rests r t
  | cons e es ih =>
    have hnext := sound_occur h e
    cases hmover : r.mover? t.id e with
    | none =>
      rw [course_cons_of_none hmover]
      rcases h.stays ht hmover with hstays | ⟨-, hgone⟩
      · exact (ih hnext hstays).since (h.meanwhile ht hmover)
      · rw [hgone.course hnext]
        exact .rests r t
    | some u =>
      obtain ⟨rfl, before, after, hready⟩ := mover?_eq_some hmover
      obtain rfl : u = t := h.eq_of_id ht (mem_of_ready hready) (ready?_eq_some hready).2.1
      rw [course_cons_of_mover hmover]
      cases hp : (r.move u).2 with
      | ends o =>
        rw [(h.occur_move_ends hready hp).1.course hnext]
        exact .ends (.refl u r) hp
      | goesOn phase =>
        have hrest := ih hnext (occur_move_goesOn hready hp).1
        rw [occur_of_ready hready] at hrest ⊢
        exact .goesOn (.refl u r) hp hrest.of_moved

/-- Where a thread goes on from its first move. -/
theorem Thread.uncons {m : Moment} {ms : List Moment} (thread : Thread r t (m :: ms)) :
    m.task = t ∧ Meanwhile t r m.book ∧
      ((∃ o, m.progress = .ends o ∧ ms = []) ∨
        ∃ phase, m.progress = .goesOn phase ∧ Thread m.after { m.task with phase } ms) := by
  cases thread with
  | ends meanwhile ends => exact ⟨rfl, meanwhile, Or.inl ⟨_, ends, rfl⟩⟩
  | goesOn meanwhile moves rest => exact ⟨rfl, meanwhile, Or.inr ⟨_, moves, rest⟩⟩

/-- With a move that ends it the thread is over. -/
theorem Thread.nil_of_ends {m : Moment} {ms : List Moment} {o : Outcome}
    (thread : Thread r t (m :: ms)) (ends : m.progress = .ends o) : ms = [] := by
  obtain ⟨-, -, ⟨_, -, hnone⟩ | ⟨phase, hgoes, -⟩⟩ := thread.uncons
  · exact hnone
  · rw [ends] at hgoes
    cases hgoes

theorem Thread.next {m : Moment} {ms : List Moment} {phase : Phase}
    (thread : Thread r t (m :: ms)) (goesOn : m.progress = .goesOn phase) :
    Thread m.after { m.task with phase } ms := by
  obtain ⟨-, -, ⟨o, hends, -⟩ | ⟨phase', hgoes, hrest⟩⟩ := thread.uncons
  · rw [goesOn] at hends
    cases hends
  · rw [goesOn] at hgoes
    cases hgoes
    exact hrest

/-- A thread can be taken up at each of its moves. -/
theorem Thread.at (us : List Moment) {ms : List Moment} {m : Moment}
    (thread : Thread r t (us ++ m :: ms)) : Thread m.book m.task (m :: ms) := by
  induction us generalizing r t with
  | nil =>
    cases thread with
    | ends meanwhile ends => exact .ends (.refl t _) ends
    | goesOn meanwhile moves rest => exact .goesOn (.refl t _) moves rest
  | cons u us ih =>
    obtain ⟨-, -, ⟨o, -, hnone⟩ | ⟨phase, -, hrest⟩⟩ := thread.uncons
    · cases us <;> cases hnone
    · exact ih hrest

theorem move_settings (r : Relay) (t : Task) : (r.move t).1.settings = r.settings ∧
    (r.move t).1.retryDelay = r.retryDelay ∧ (r.move t).1.now = r.now := by
  obtain ⟨cache, syncing, registry, remote, log, hmove⟩ := move_frame r t
  rw [hmove]
  exact ⟨rfl, rfl, rfl⟩

/-- A task keeps all but its phase. -/
theorem Thread.mem {ms : List Moment} (thread : Thread r t ms) {m : Moment} (hm : m ∈ ms) :
    (∃ phase, m.task = { t with phase }) ∧ m.book.settings = r.settings ∧
      m.book.retryDelay = r.retryDelay := by
  induction thread with
  | rests => cases hm
  | ends meanwhile =>
    rw [List.mem_singleton.mp hm]
    exact ⟨⟨_, rfl⟩, meanwhile.settings, meanwhile.retryDelay⟩
  | @goesOn r s t phase ms meanwhile moves rest ih =>
    rcases List.mem_cons.mp hm with rfl | hm
    · exact ⟨⟨_, rfl⟩, meanwhile.settings, meanwhile.retryDelay⟩
    · obtain ⟨⟨phase', htask⟩, hsettings, hdelay⟩ := ih hm
      obtain ⟨hsame, hlong, -⟩ := move_settings s t
      exact ⟨⟨phase', htask⟩, (hsettings.trans hsame).trans meanwhile.settings,
        (hdelay.trans hlong).trans meanwhile.retryDelay⟩

theorem Thread.keeps (us : List Moment) {ms : List Moment} {m : Moment}
    (thread : Thread r t (us ++ m :: ms)) :
    (∃ phase, m.task = { t with phase }) ∧ m.book.settings = r.settings ∧
      m.book.retryDelay = r.retryDelay :=
  thread.mem (List.mem_append_right _ List.mem_cons_self)

/-! ### The end of a task -/

/-- **A task that is there no more has come to its end, or has been dropped**; and how it has ended
is on record. -/
theorem Sound.course_ends (h : Sound r) (ht : t ∈ r.tasks) (es : List Event) :
    (∃ m ∈ r.course t.id es, ∃ o, m.progress = .ends o ∧ (r.run es).outcome? t.id = some o) ∨
    (∀ m ∈ r.course t.id es, ∃ phase, m.progress = .goesOn phase) ∧
      (r.run es).outcome? t.id = r.outcome? t.id ∧
      ((∃ u ∈ (r.run es).tasks, u.id = t.id) ∨ .call (.abort t.id) ∈ es) := by
  induction es generalizing r t with
  | nil => exact Or.inr ⟨fun _ hm => absurd hm List.not_mem_nil, rfl, Or.inl ⟨t, ht, rfl⟩⟩
  | cons e es ih =>
    have hnext := sound_occur h e
    cases hmover : r.mover? t.id e with
    | none =>
      rw [course_cons_of_none hmover, run_cons, ← outcome?_occur_of_none hmover]
      rcases h.stays ht hmover with hstays | ⟨rfl, hgone⟩
      · refine (ih hnext hstays).imp_right ?_
        rintro ⟨hgoes, houtcome, hcases⟩
        exact ⟨hgoes, houtcome, hcases.imp_right (List.mem_cons_of_mem _)⟩
      · rw [hgone.course hnext, hgone.outcome?_run hnext]
        refine Or.inr ⟨?_, rfl, Or.inr List.mem_cons_self⟩
        intro m hm
        cases hm
    | some u =>
      obtain ⟨rfl, before, after, hready⟩ := mover?_eq_some hmover
      obtain rfl : u = t := h.eq_of_id ht (mem_of_ready hready) (ready?_eq_some hready).2.1
      rw [course_cons_of_mover hmover, run_cons]
      cases hp : (r.move u).2 with
      | ends o =>
        obtain ⟨hgone, hrecord⟩ := h.occur_move_ends hready hp
        rw [hgone.course hnext, hgone.outcome?_run hnext]
        exact Or.inl ⟨_, List.mem_cons_self, o, hp, hrecord⟩
      | goesOn phase =>
        obtain ⟨hremains, hrecord⟩ := occur_move_goesOn hready hp
        rw [← hrecord]
        rcases ih hnext hremains with ⟨m, hm, hended⟩ | ⟨hgoes, houtcome, hcases⟩
        · exact Or.inl ⟨m, List.mem_cons_of_mem _ hm, hended⟩
        · refine Or.inr ⟨?_, houtcome, hcases.imp_right (List.mem_cons_of_mem _)⟩
          intro m hm
          rcases List.mem_cons.mp hm with rfl | hm
          · exact ⟨phase, hp⟩
          · exact hgoes m hm

end Relay

end ProposerBook
