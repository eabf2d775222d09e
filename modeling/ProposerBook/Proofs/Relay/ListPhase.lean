/-
How the lists follow the slot map.

A task that begins with the slot map comes to the lists in one way: with the move that ends its
sync, if lists are wanted, and unless it is told that the book is busy.  A failure is no reason not
to go on; the task then takes the slot map that it finds.

From there on it is after the names that proposers name at this moment, and it keeps them.  The
slot map may change, and so may the registry; but each of its requests asks for the same names, and
what it gets it merges into the registry as it is when the answer comes.
-/
import ProposerBook.Proofs.Relay.Refresh

namespace ProposerBook

theorem Task.goesOnToLists_iff {t : Task} {o : Outcome} : t.goesOnToLists o = true ↔
    t.purpose = .startup ∨ t.purpose = .lookup ∧ o ≠ .error .busy := by
  unfold goesOnToLists
  cases t.purpose with
  | startup => exact ⟨fun _ => Or.inl rfl, fun _ => rfl⟩
  | lookup =>
    cases o with
    | ok n => exact ⟨fun _ => Or.inr ⟨rfl, nofun⟩, fun _ => rfl⟩
    | error e =>
      cases e with
      | busy => exact ⟨nofun, fun h => (h.resolve_left nofun).2.elim rfl⟩
      | _ => exact ⟨fun _ => Or.inr ⟨rfl, nofun⟩, fun _ => rfl⟩
  | validators =>
    refine ⟨nofun, ?_⟩
    rintro (hkind | ⟨hkind, -⟩) <;> cases hkind
  | lists =>
    refine ⟨nofun, ?_⟩
    rintro (hkind | ⟨hkind, -⟩) <;> cases hkind

namespace Relay

open Pursuit

variable {r s : Relay} {t : Task} {m : Moment} {ms : List Moment} {names : List String}

/-! ### What is asked for -/

/-- Who is after some lists asks for these and no others. -/
theorem listCalls_of_busy_lists
    (busy : ∃ phase, m.progress = .goesOn phase ∧ (lists names).Busy phase) :
    m.listCalls = [] ∨ m.listCalls = [names] := by
  obtain ⟨phase, hp, hbusy⟩ := busy
  rcases move_asks m with hsame | ⟨left, hremote, -⟩ | ⟨others, left, hremote, hgoes⟩
  · exact Or.inl (calls_of_same hsame).2
  · exact Or.inl (calls_of_askValidators hremote).2
  · rw [hgoes] at hp
    cases hp
    refine Or.inr ?_
    rw [(calls_of_askLists hremote).2]
    rcases hbusy with ⟨_, _, _, hphase⟩ | ⟨_, _, hphase⟩
    · cases hphase
      rfl
    · cases hphase

theorem flatMap_listCalls_of_busy_lists
    (busy : ∀ u ∈ ms, ∃ phase, u.progress = .goesOn phase ∧ (lists names).Busy phase) :
    ms.flatMap Moment.listCalls = List.replicate ((lists names).delays ms).length names := by
  rw [List.eq_replicate_iff]
  refine ⟨length_flatMap_listCalls names ms, ?_⟩
  intro others hothers
  obtain ⟨u, hu, hmem⟩ := List.mem_flatMap.mp hothers
  rcases listCalls_of_busy_lists (busy u hu) with hnone | hone
  · rw [hnone] at hmem
    cases hmem
  · rw [hone] at hmem
    exact List.mem_singleton.mp hmem

/-! ### What comes of it -/

/-- A task that is after some lists stays after them. -/
theorem Thread.keeps_names (thread : Thread r t ms) (after : t.phase.names? = some names) :
    ∀ u ∈ ms, u.task.phase.names? = some names := by
  induction ms generalizing r t with
  | nil =>
    intro u hu
    cases hu
  | cons m ms ih =>
    obtain ⟨htask, -, hnext⟩ := thread.uncons
    rw [← htask] at after
    intro u hu
    rcases List.mem_cons.mp hu with rfl | hu
    · exact after
    · rcases hnext with ⟨o, -, rfl⟩ | ⟨phase, hp, hrest⟩
      · cases hu
      · exact ih hrest ((move_of_names after).2 phase hp) u hu

/-- What a task hears is what its move merges. -/
theorem merges_of_hears {left : Nat} {x : Except RelayError NamedLists}
    (h : (lists names).hears? m = some (left, x)) (after : m.task.phase.names? = some names) :
    m.book.merges? m.task = x.toOption := by
  unfold Pursuit.hears? at h
  rw [Option.map_eq_some_iff] at h
  obtain ⟨⟨left', reply⟩, hawaits, hx⟩ := h
  cases hphase : m.task.phase with
  | askingLists others due n reply' =>
    rw [hphase] at hawaits after
    cases hawaits
    cases after
    cases hx
    exact merges_of_askingLists hphase
  | _ =>
    rw [hphase] at hawaits
    cases hawaits

/-- With lists that come a task ends. -/
theorem merges_of_goesOn {phase : Phase} (h : m.progress = .goesOn phase) :
    m.book.merges? m.task = none := by
  cases hphase : m.task.phase with
  | askingLists names due left reply =>
    rw [merges_of_askingLists hphase]
    cases hanswer : reply.resolve (m.book.remote.listsNamed names) with
    | error e => rfl
    | ok got =>
      obtain ⟨-, hends⟩ := move_of_concluding_lists hphase (Or.inl ⟨got, hanswer⟩)
      rw [Moment.progress, hends] at h
      cases h
  | _ =>
    unfold merges?
    rw [hphase]

theorem registry_of_goesOn {phase : Phase} (h : m.progress = .goesOn phase) :
    m.after.registry = m.book.registry := by
  have hregistry : m.after.registry = _ := move_registry m.book m.task
  rw [merges_of_goesOn h] at hregistry
  exact hregistry

/-- What a sync of the lists that begins with `m` has come to. -/
inductive Collects (m : Moment) : List Moment → Prop
  /-- An answer comes, and is merged into the registry as it is then. -/
  | merges {us : List Moment} {last : Moment} (errors : List RelayError) (got : NamedLists)
      (few : errors.length ≤ m.task.retries)
      (answers : (lists m.names).answers (m :: (us ++ [last])) = errors.map .error ++ [.ok got])
      (asks : (m :: (us ++ [last])).flatMap Moment.listCalls
        = List.replicate (errors.length + 1) m.names)
      (still : ∀ u ∈ m :: us, u.after.registry = u.book.registry)
      (registry : last.after.registry = last.book.registry.update last.book.arrivals got)
      (ends : last.progress = .ends (.ok got.size)) : Collects m (us ++ [last])
  /-- All attempts fail. -/
  | fails {us : List Moment} {last : Moment} (errors : List RelayError) (e : RelayError)
      (spent : errors.length = m.task.retries)
      (answers : (lists m.names).answers (m :: (us ++ [last])) = errors.map .error ++ [.error e])
      (asks : (m :: (us ++ [last])).flatMap Moment.listCalls
        = List.replicate (errors.length + 1) m.names)
      (still : ∀ u ∈ m :: (us ++ [last]), u.after.registry = u.book.registry)
      (ends : last.progress = .ends (.error e)) : Collects m (us ++ [last])
  /-- No answer has decided so far. -/
  | underway {ms : List Moment} (errors : List RelayError) (few : errors.length ≤ m.task.retries)
      (answers : (lists m.names).answers (m :: ms) = errors.map .error)
      (asks : ∃ n, n ≤ errors.length + 1 ∧
        (m :: ms).flatMap Moment.listCalls = List.replicate n m.names)
      (still : ∀ u ∈ m :: ms, u.after.registry = u.book.registry)
      (goesOn : ∀ u ∈ m :: ms, ∃ phase, u.progress = .goesOn phase) : Collects m ms

theorem collects (thread : Thread r t (m :: ms)) (begins : m.BeginsLists) (named : m.names ≠ []) :
    Collects m ms := by
  have asks := asks_lists begins named
  cases (Pursuit.lawful_lists m.names).budget thread asks with
  | @pending ms errors pending =>
    refine .underway errors pending.within pending.answers ⟨_, pending.requests,
      flatMap_listCalls_of_busy_lists pending.busy⟩ ?_ ?_
    · intro u hu
      obtain ⟨phase, hgoes, -⟩ := pending.busy u hu
      exact registry_of_goesOn hgoes
    · intro u hu
      obtain ⟨phase, hgoes, -⟩ := pending.busy u hu
      exact ⟨phase, hgoes⟩
  | @decided us after last errors x decided quiet =>
    have hends : last.progress = .ends (x.map (lists m.names).size) := decided.returns
    obtain rfl := (thread.at (m :: us)).nil_of_ends hends
    have hasks : (m :: (us ++ [last])).flatMap Moment.listCalls
        = List.replicate (errors.length + 1) m.names := by
      have hlast : last.listCalls = [] := by
        have hlength := length_flatMap_listCalls m.names [last]
        rw [quiet.1, List.flatMap_singleton] at hlength
        exact List.eq_nil_of_length_eq_zero hlength
      rw [← List.cons_append, List.flatMap_append, List.flatMap_singleton, hlast, List.append_nil,
        flatMap_listCalls_of_busy_lists decided.busy, decided.requests]
    have hstill : ∀ u ∈ m :: us, u.after.registry = u.book.registry := by
      intro u hu
      obtain ⟨phase, hgoes, -⟩ := decided.busy u hu
      exact registry_of_goesOn hgoes
    -- Only the last move merges, and what it merges is the answer that decides.
    obtain ⟨left, hhears⟩ := decided.hears
    have hregistry : last.after.registry = _ := move_registry last.book last.task
    have hnames := (asks.next thread).keeps_names rfl last
      (List.mem_append_right _ List.mem_cons_self)
    rw [merges_of_hears hhears hnames] at hregistry
    cases x with
    | ok got => exact .merges errors got decided.within decided.answers hasks hstill hregistry hends
    | error e =>
      refine .fails errors e ?_ decided.answers hasks ?_ hends
      · refine decided.decides.resolve_left ?_
        rintro ⟨a, ha⟩
        cases ha
      · intro u hu
        rw [← List.cons_append] at hu
        rcases List.mem_append.mp hu with hu | hu
        · exact hstill u hu
        · rw [List.mem_singleton.mp hu]
          exact hregistry

/-! ### When it begins -/

/-- **Lists are asked for after the sync of the slot map**, and after it nothing else is. -/
theorem Career.lists_after (h : Career t ms) (kind : t.purpose ≠ .lists) (hm : m ∈ ms)
    (asks : m.listCalls ≠ []) : ∃ us last after o, ms = us ++ last :: after ∧
      last.EndsValidators o ∧ last.BeginsLists ∧ last.book.settings.complianceLists = true ∧
      m ∈ last :: after ∧ (∀ u ∈ us, u.listCalls = []) ∧ ∀ u ∈ last :: after, u.calls = 0 := by
  cases h with
  | rests => cases hm
  | @refused u task kind up ends =>
    rw [List.mem_singleton.mp hm] at asks
    exact absurd (calls_of_same (same_of_refused ends)).2 asks
  | lists task kind' => exact absurd kind' kind
  | pending task kind down pending => exact absurd (listCalls_of_busy (pending.busy m hm)) asks
  | @ends first last us errors x task kind down decided unwanted ends same =>
    rw [← List.cons_append] at hm
    rcases List.mem_append.mp hm with hm | hm
    · exact absurd (listCalls_of_busy (decided.busy m hm)) asks
    · rw [List.mem_singleton.mp hm] at asks
      exact absurd (calls_of_same same).2 asks
  | @follows first last us after errors x task keeps kind down decided quiet wanted begins phase =>
    rw [← List.cons_append] at hm
    refine ⟨first :: us, last, after, _, rfl, decided.returns, begins, wanted.1, ?_,
      fun u hu => listCalls_of_busy (decided.busy u hu), ?_⟩
    · exact (List.mem_append.mp hm).resolve_left fun hu =>
        asks (listCalls_of_busy (decided.busy m hu))
    · intro u hu
      rw [calls_eq, List.filterMap_eq_nil_iff.mp quiet.1 u hu]
      rfl

/-- A sync of the slot map that fails leaves it as it was. -/
theorem cache_of_ends_error {e : RelayError} (h : m.EndsValidators (.error e)) :
    m.after.cache = m.book.cache := by
  obtain ⟨due, left, reply, hphase, herror⟩ := h.answer
  have hcache : m.after.cache = _ := move_cache m.book m.task
  rw [brings_of_asking hphase] at hcache
  cases hanswer : reply.resolve m.book.remote.validators with
  | ok rs =>
    rw [hanswer] at herror
    cases herror
  | error e' =>
    rw [hanswer] at hcache
    exact hcache

theorem Reachable.at_course (h : Reachable s) {es : List Event} (hm : m ∈ s.course t.id es) :
    Reachable m.book ∧ m.task ∈ m.book.tasks ∧ m.task.phase.due ≤ m.book.now := by
  obtain ⟨⟨ds, hbook⟩, hmem, -, hdue⟩ := mem_course hm
  exact ⟨hbook ▸ h.run ds, hmem, hdue⟩

/-- Whoever turns to the lists is after those that some proposer names. -/
theorem Reachable.mem_names_iff (h : Reachable m.book) (hm : m.task ∈ m.book.tasks)
    (due : m.task.phase.due ≤ m.book.now) (n : String) :
    n ∈ m.names ↔ m.after.cache.slots.Names n := by
  obtain ⟨before, after, htasks⟩ := List.append_of_mem hm
  have hcache := cache_of_ready (h.sound.ready htasks due)
  obtain ⟨r, ds, hnext⟩ := h.occur (.move m.task.id)
  unfold Moment.names Moment.after
  rw [← hcache, hnext]
  refine ⟨fun hn => ⟨ne_empty_of_listNames r ds hn, SlotMap.mem_listNames.mp hn⟩, ?_⟩
  exact fun hn => SlotMap.mem_listNames.mpr hn.2

/-! ### The main result -/

/--
**The lists follow the slot map.**  The first sync and that of a lookup ask for lists only if these
are wanted, and only with the move that ends the sync of the slot map or after it.  The task of a
lookup that finds the flag up ends at once; a failure leaves the slot map as it was, and the task
goes on.  Whenever a task begins with the lists, it has the names that occur in the slot map at
this moment.  Without a name it is done; else it asks for just these with each attempt, and merges
what it gets into the registry as it is then, or leaves the registry alone.
-/
theorem lists_follow_slot_map {s : Relay} (h : Reachable s) {t : Task} (ht : t ∈ s.tasks)
    (waits : t.phase = .waiting) (es : List Event) :
    let ms := s.course t.id es
    (t.purpose = .startup ∨ t.purpose = .lookup →
      (∀ m ∈ ms, m.listCalls ≠ [] → s.settings.complianceLists = true ∧
        ∃ us last after o, ms = us ++ last :: after ∧ last.EndsValidators o ∧ last.BeginsLists ∧
          m ∈ last :: after ∧ (∀ u ∈ us, u.listCalls = []) ∧ ∀ u ∈ last :: after, u.calls = 0) ∧
      (∀ m us, ms = m :: us → m.book.syncing = true →
        us = [] ∧ ∃ log, m.book.move t = ({ m.book with log }, .ends (.error .busy))) ∧
      ∀ us m after o, ms = us ++ m :: after → m.EndsValidators o →
        (∀ e, o = .error e → m.after.cache = m.book.cache) ∧
        if s.settings.complianceLists = true ∧ (t.purpose = .startup ∨ o ≠ .error .busy)
          then m.BeginsLists
          else after = [] ∧ m.listCalls = [] ∧ m.progress = .ends o) ∧
    (t.purpose = .lists → ∀ m us, ms = m :: us → m.BeginsLists) ∧
    ∀ us m after, ms = us ++ m :: after → m.BeginsLists →
      m.names.Nodup ∧ (∀ n, n ∈ m.names ↔ m.after.cache.slots.Names n) ∧
      (m.names = [] → after = [] ∧ m.listCalls = [] ∧ m.after.registry = m.book.registry ∧
        m.progress = .ends (.ok 0)) ∧
      (m.names ≠ [] → Collects m after) := by
  intro ms
  have hsound := h.sound
  have hthread : Thread s t ms := thread_course hsound ht es
  have hcareer : Career t ms := hsound.career ht waits es
  refine ⟨fun kind => ?_, ?_, ?_⟩
  · have hkind : t.purpose ≠ .lists := by
      rcases kind with hk | hk <;> rw [hk] <;> nofun
    refine ⟨?_, ?_, ?_⟩
    · intro m hm hasks
      obtain ⟨us, last, after, o, hsplit, hends, hbegins, hwanted, hrest⟩ :=
        hcareer.lists_after hkind hm hasks
      have hlast : last ∈ ms := by
        rw [hsplit]
        exact List.mem_append_right _ List.mem_cons_self
      rw [(hthread.mem hlast).2.1] at hwanted
      exact ⟨hwanted, us, last, after, o, hsplit, hends, hbegins, hrest⟩
    · intro m us hcourse up
      obtain ⟨hnone, -, hbusy⟩ := hsound.course_of_syncing ht waits hkind hcourse up
      exact ⟨hnone, hbusy⟩
    · intro us m after o hsplit hends
      refine ⟨?_, ?_⟩
      · rintro e rfl
        exact cache_of_ends_error hends
      · rw [hsplit] at hthread
        obtain ⟨⟨phase, htask⟩, hsettings, -⟩ := hthread.keeps us
        have hgoes : m.task.goesOnToLists o = true ↔ t.purpose = .startup ∨ o ≠ .error .busy := by
          rw [Task.goesOnToLists_iff, htask]
          rcases kind with hk | hk
          · simp [hk]
          · simp [hk]
        have hfollows := follows_of_ends hends
        simp only [hsettings, hgoes] at hfollows
        split
        · rename_i hwanted
          rw [if_pos hwanted] at hfollows
          exact hfollows
        · rename_i hunwanted
          rw [if_neg hunwanted] at hfollows
          obtain ⟨hend, hsame⟩ := hfollows
          exact ⟨(hthread.at us).nil_of_ends hend, (calls_of_same hsame).2, hend⟩
  · intro hkind m us hcourse
    rw [hcourse] at hthread
    obtain ⟨htask, -, -⟩ := hthread.uncons
    exact begins_of_waiting (htask ▸ waits) (htask ▸ hkind)
  · intro us m after hsplit hbegins
    rw [hsplit] at hthread
    have hm : m ∈ s.course t.id es := by
      show m ∈ ms
      rw [hsplit]
      exact List.mem_append_right _ List.mem_cons_self
    obtain ⟨hreach, hmem, hdue⟩ := h.at_course hm
    refine ⟨SlotMap.nodup_listNames _, hreach.mem_names_iff hmem hdue, ?_,
      collects (hthread.at us) hbegins⟩
    intro hnone
    rcases hbegins.cases with ⟨-, hsame, hends⟩ | ⟨hnamed, -, -⟩
    · have hregistry : m.after.registry = _ := move_registry m.book m.task
      rw [merges_of_names hbegins.idle] at hregistry
      exact ⟨(hthread.at us).nil_of_ends hends, (calls_of_same hsame).2, hregistry, hends⟩
    · exact absurd hnone hnamed

/-- The first sync of a book whose proposers name one list. -/
theorem lists_follow_slot_map_serving : ∃ us m after o,
    (opened (serving [])).course 0 [.move 0, .move 0, .move 0] = us ++ m :: after ∧
      m.EndsValidators o ∧ m.BeginsLists ∧ m.names = ["custom"] ∧ Collects m after := by
  let s := opened (serving [])
  let t : Task := { id := 0, purpose := .startup, slot := 0, retries := 3 }
  let m : Moment := ⟨s.occur (.move 0), { t with phase := .asking 0 3 .standing }⟩
  let after := (s.run [.move 0, .move 0]).course 0 [.move 0]
  have hcourse : s.course 0 [.move 0, .move 0, .move 0] = [⟨s, t⟩] ++ m :: after := rfl
  obtain ⟨o, hends⟩ : ∃ o, m.EndsValidators o :=
    ⟨_, (Pursuit.lawful_validators.concludes (m := m) rfl (Or.inl ⟨_, rfl⟩)).1⟩
  have hnames : m.names = ["custom"] := by decide +kernel
  obtain ⟨hfirst, -, hlists⟩ := lists_follow_slot_map (s := s) ⟨_, [], rfl⟩ (t := t)
    List.mem_cons_self rfl [.move 0, .move 0, .move 0]
  obtain ⟨-, hbegins⟩ := (hfirst (Or.inl rfl)).2.2 [⟨s, t⟩] m after o hcourse hends
  rw [if_pos ⟨rfl, Or.inl rfl⟩] at hbegins
  obtain ⟨-, -, -, hcollects⟩ := hlists [⟨s, t⟩] m after hcourse hbegins
  refine ⟨[⟨s, t⟩], m, after, o, hcourse, hends, hbegins, hnames, hcollects ?_⟩
  rw [hnames]
  nofun

end Relay

end ProposerBook
