/-
What one move of one task can do.

`Turn` lists it, case by case, with what has to be the case for it: what becomes of the
cache, the flag, the registry and the other side, and how the task goes on.  Only the log
is left open.  Every later proof about moves starts from this list, or from the phase of the
task, where it is known.

Where a sync of the slot map ends, the lists may follow in the same move.  That part is
told apart from the rest, by three equations: `endValidators_eq` says whether the lists
follow, `beginLists_eq` whether there is anything to ask for, and `endLists_eq` that
nothing more happens after them.
-/
import ProposerBook.Relay.Schedule

namespace ProposerBook

/-! ### Where a task stands -/

/-- Whether a phase lies between taking the flag and giving it back. -/
def Phase.syncs : Phase → Bool
  | .asking .. | .pausing .. => true
  | _ => false

/-- Whether a phase waits for registrations. -/
def Phase.asks : Phase → Bool
  | .asking .. => true
  | _ => false

def Task.syncs (t : Task) : Bool := t.phase.syncs

def Task.asks (t : Task) : Bool := t.phase.asks

def Progress.syncs : Progress → Bool
  | .goesOn phase => phase.syncs
  | .ends _ => false

/-- What is left of a task that has moved. -/
def Progress.remains (t : Task) : Progress → List Task
  | .goesOn phase => [{ t with phase }]
  | .ends _ => []

/-- What goes on record about a task that has moved. -/
def Progress.record (t : Task) : Progress → List (Nat × Outcome)
  | .goesOn _ => []
  | .ends o => [(t.id, o)]

/-- Whether the lists follow when a sync of the slot map has ended so, if they are wanted. -/
def Task.goesOnToLists (t : Task) (o : Outcome) : Bool :=
  match t.purpose, o with
  | .startup, _ => true
  | .lookup, .error .busy => false
  | .lookup, _ => true
  | _, _ => false

namespace Relay

/-! ### The lists -/

theorem endLists_eq (r : Relay) (t : Task) (o : Outcome) :
    ∃ log, r.endLists t o = ({ r with log }, .ends o) := by
  unfold endLists
  split <;> exact ⟨_, rfl⟩

theorem endLists_ends (r : Relay) (t : Task) (o : Outcome) : (r.endLists t o).2 = .ends o := by
  obtain ⟨log, hends⟩ := endLists_eq r t o
  rw [hends]

theorem beginLists_eq (r : Relay) (t : Task) :
    ∃ log, r.beginLists t =
      if SlotMap.listNames r.cache.slots = [] then ({ r with log }, .ends (.ok 0))
      else ({ r with log } : Relay).askLists (SlotMap.listNames r.cache.slots) t.retries := by
  unfold beginLists
  split
  · rename_i hnames
    obtain ⟨log, hlog⟩ := endLists_eq (r.note .info .cache
      "Skipping compliance list update, no validator requested a compliance list this epoch"
      [slotField "current_slot" t.slot]) t (.ok 0)
    exact ⟨log, by rw [if_pos hnames, hlog]; rfl⟩
  · rename_i hnames
    exact ⟨_, by rw [if_neg hnames]; rfl⟩

/-- Whether the lists follow is settled by the purpose of the task and how its sync ended. -/
theorem endValidators_eq (r : Relay) (t : Task) (o : Outcome) :
    ∃ log, r.endValidators t o =
      if r.settings.complianceLists = true ∧ t.goesOnToLists o = true then
        ({ r with log } : Relay).beginLists t
      else ({ r with log }, .ends o) := by
  have hwanted : ∀ s : Relay, s.settings = r.settings → t.goesOnToLists o = true →
      s.beginListsIfWanted t o = if r.settings.complianceLists = true ∧ t.goesOnToLists o = true
        then s.beginLists t else (s, .ends o) := by
    intro s hs ho
    unfold beginListsIfWanted
    rw [hs]
    by_cases hl : r.settings.complianceLists = true
    · rw [if_pos hl, if_pos ⟨hl, ho⟩]
    · rw [if_neg hl, if_neg fun h => hl h.1]
  have hends : t.goesOnToLists o = false → ∀ s : Relay, (s, Progress.ends o) =
      if r.settings.complianceLists = true ∧ t.goesOnToLists o = true
        then s.beginLists t else (s, .ends o) := by
    intro ho s
    rw [if_neg]
    rintro ⟨-, hc⟩
    rw [ho] at hc
    cases hc
  unfold endValidators
  cases hp : t.purpose with
  | startup =>
    have ho : t.goesOnToLists o = true := by simp only [Task.goesOnToLists, hp]
    cases o with
    | error e => exact ⟨_, hwanted _ rfl ho⟩
    | ok n => exact ⟨r.log, hwanted _ rfl ho⟩
  | lookup =>
    cases o with
    | error e =>
      by_cases hbusy : e = .busy
      · subst hbusy
        exact ⟨_, hends (by simp only [Task.goesOnToLists, hp]) _⟩
      · have ho : t.goesOnToLists (.error e) = true := by
          cases e <;> first | exact absurd rfl hbusy | simp only [Task.goesOnToLists, hp]
        cases e <;> first | exact absurd rfl hbusy | exact ⟨_, hwanted _ rfl ho⟩
    | ok n => exact ⟨r.log, hwanted _ rfl (by simp only [Task.goesOnToLists, hp])⟩
  | validators => exact ⟨r.log, hends (by simp only [Task.goesOnToLists, hp]) r⟩
  | lists => exact ⟨r.log, hends (by simp only [Task.goesOnToLists, hp]) r⟩

/-! ### One move -/

/-- What a move of `t` can be. -/
inductive Turn (r : Relay) (t : Task) : Relay × Progress → Prop
  /-- The flag is up already. -/
  | refused (waits : t.phase = .waiting) (kind : t.purpose ≠ .lists) (up : r.syncing = true) :
    Turn r t (r.endValidators t (.error .busy))
  /-- The task raises the flag and makes its first request. -/
  | begins (log : List LogEvent) (waits : t.phase = .waiting) (kind : t.purpose ≠ .lists)
      (down : r.syncing = false) :
    Turn r t (({ r with syncing := true, log } : Relay).askValidators t.retries)
  /-- A pause is over. -/
  | asksAgain {due left : Nat} (pauses : t.phase = .pausing due left) :
    Turn r t (r.askValidators left)
  /-- The registrations come, and replace what there was. -/
  | succeeds {due left : Nat} {reply : Reply (List Registration)} (log : List LogEvent)
      (rs : List Registration) (asks : t.phase = .asking due left reply)
      (answer : reply.resolve r.remote.validators = .ok rs) :
    Turn r t (({ r with
      cache := ⟨SlotMap.ofRegistrations rs, some t.slot⟩
      syncing := false
      log } : Relay).endValidators t (.ok (SlotMap.ofRegistrations rs).size))
  /-- The last attempt fails. -/
  | fails {due : Nat} {reply : Reply (List Registration)} (log : List LogEvent) (e : RelayError)
      (asks : t.phase = .asking due 0 reply)
      (answer : reply.resolve r.remote.validators = .error e) :
    Turn r t (({ r with syncing := false, log } : Relay).endValidators t (.error e))
  /-- An attempt fails that is not the last. -/
  | pauses {due left : Nat} {reply : Reply (List Registration)} (log : List LogEvent)
      (e : RelayError) (asks : t.phase = .asking due (left + 1) reply)
      (answer : reply.resolve r.remote.validators = .error e) :
    Turn r t ({ r with log }, .goesOn (.pausing (r.now + r.retryDelay) left))
  /-- Only the lists are wanted. -/
  | beginsLists (waits : t.phase = .waiting) (kind : t.purpose = .lists) :
    Turn r t (r.beginLists t)
  | asksListsAgain {names : List String} {due left : Nat}
      (pauses : t.phase = .pausingLists names due left) :
    Turn r t (r.askLists names left)
  /-- The lists come, and are merged into the registry as it is now. -/
  | listsSucceed {names : List String} {due left : Nat} {reply : Reply NamedLists}
      (log : List LogEvent) (lists : NamedLists)
      (asks : t.phase = .askingLists names due left reply)
      (answer : reply.resolve (r.remote.listsNamed names) = .ok lists) :
    Turn r t (({ r with registry := r.registry.update r.arrivals lists, log } : Relay).endLists t
      (.ok lists.size))
  | listsFail {names : List String} {due : Nat} {reply : Reply NamedLists} (log : List LogEvent)
      (e : RelayError) (asks : t.phase = .askingLists names due 0 reply)
      (answer : reply.resolve (r.remote.listsNamed names) = .error e) :
    Turn r t (({ r with log } : Relay).endLists t (.error e))
  | listsPause {names : List String} {due left : Nat} {reply : Reply NamedLists}
      (log : List LogEvent) (e : RelayError)
      (asks : t.phase = .askingLists names due (left + 1) reply)
      (answer : reply.resolve (r.remote.listsNamed names) = .error e) :
    Turn r t ({ r with log }, .goesOn (.pausingLists names (r.now + r.retryDelay) left))

theorem noteMalformed_eq (r : Relay) (rs : List Registration) :
    ∃ log, r.noteMalformed rs = { r with log } := by
  unfold noteMalformed
  induction SlotMap.malformed rs generalizing r with
  | nil => exact ⟨r.log, rfl⟩
  | cons x xs ih =>
    rw [List.foldl_cons]
    obtain ⟨log, hlog⟩ := ih _
    exact ⟨log, hlog⟩

/-- **Every move is one of these.** -/
theorem turn_move (r : Relay) (t : Task) : Turn r t (r.move t) := by
  unfold move
  split
  · rename_i hphase
    split
    · rename_i hkind
      exact .beginsLists hphase hkind
    · rename_i hkind
      unfold beginValidators
      split
      · rename_i hup
        exact .refused hphase hkind hup
      · rename_i hdown
        exact .begins _ hphase hkind (Bool.eq_false_iff.mpr hdown)
  · rename_i hphase
    unfold takeValidators
    split
    · rename_i rs hanswer
      obtain ⟨log, hlog⟩ := noteMalformed_eq r rs
      rw [hlog]
      exact .succeeds _ rs hphase hanswer
    · rename_i hanswer
      exact .fails _ _ hphase hanswer
    · rename_i hanswer
      exact .pauses _ _ hphase hanswer
  · rename_i hphase
    exact .asksAgain hphase
  · rename_i hphase
    unfold takeLists
    split
    · rename_i hanswer
      exact .listsSucceed _ _ hphase hanswer
    · rename_i hanswer
      exact .listsFail _ _ hphase hanswer
    · rename_i hanswer
      exact .listsPause _ _ hphase hanswer
  · rename_i hphase
    exact .asksListsAgain hphase

/-! ### A move by its phase -/

theorem move_of_waiting_lists {r : Relay} {t : Task} (waits : t.phase = .waiting)
    (kind : t.purpose = .lists) : r.move t = r.beginLists t := by
  unfold move
  rw [waits, kind]

theorem move_of_asking {r : Relay} {t : Task} {due left : Nat}
    {reply : Reply (List Registration)} (asks : t.phase = .asking due left reply) :
    r.move t = r.takeValidators t left (reply.resolve r.remote.validators) := by
  unfold move
  rw [asks]

theorem move_of_pausing {r : Relay} {t : Task} {due left : Nat}
    (pauses : t.phase = .pausing due left) : r.move t = r.askValidators left := by
  unfold move
  rw [pauses]

theorem move_of_askingLists {r : Relay} {t : Task} {names : List String} {due left : Nat}
    {reply : Reply NamedLists} (asks : t.phase = .askingLists names due left reply) :
    r.move t = r.takeLists t names left (reply.resolve (r.remote.listsNamed names)) := by
  unfold move
  rw [asks]

theorem move_of_pausingLists {r : Relay} {t : Task} {names : List String} {due left : Nat}
    (pauses : t.phase = .pausingLists names due left) : r.move t = r.askLists names left := by
  unfold move
  rw [pauses]

/-! ### What stays as it is -/

theorem beginLists_frame (r : Relay) (t : Task) : ∃ remote log p,
    r.beginLists t = ({ r with remote, log }, p) ∧ p.syncs = false := by
  obtain ⟨log, hlog⟩ := beginLists_eq r t
  rw [hlog]
  split
  · exact ⟨r.remote, log, _, rfl, rfl⟩
  · exact ⟨_, log, _, rfl, rfl⟩

theorem endValidators_frame (r : Relay) (t : Task) (o : Outcome) : ∃ remote log p,
    r.endValidators t o = ({ r with remote, log }, p) ∧ p.syncs = false := by
  obtain ⟨log, hlog⟩ := endValidators_eq r t o
  rw [hlog]
  split
  · exact beginLists_frame _ t
  · exact ⟨r.remote, log, _, rfl, rfl⟩

/-! ### What a move does to the slot map -/

/-- The registrations that the next move of a task brings, if it brings any. -/
def brings? (r : Relay) (t : Task) : Option (List Registration) :=
  match t.phase with
  | .asking _ _ reply => (reply.resolve r.remote.validators).toOption
  | _ => none

/-- What a move of `t` does to the slot map and its flag. -/
inductive Effect (r : Relay) (t : Task) : Relay × Progress → Prop
  /-- Nothing, and `t` is in no sync of the slot map before it or after it. -/
  | none (registry : Registry) (remote : Remote) (log : List LogEvent) (p : Progress)
      (before : t.syncs = false) (after : p.syncs = false) :
    Effect r t ({ r with registry, remote, log }, p)
  /-- A sync begins. -/
  | begins (remote : Remote) (log : List LogEvent) (p : Progress) (before : t.phase = .waiting)
      (down : r.syncing = false) (after : p.syncs = true) :
    Effect r t ({ r with syncing := true, remote, log }, p)
  /-- A sync goes on, with no answer so far. -/
  | goesOn (remote : Remote) (log : List LogEvent) (p : Progress) (before : t.syncs = true)
      (after : p.syncs = true) (empty : r.brings? t = .none)
      (more : ∀ due reply, t.phase ≠ .asking due 0 reply) :
    Effect r t ({ r with remote, log }, p)
  /-- A sync ends with an answer. -/
  | succeeds (rs : List Registration) (remote : Remote) (log : List LogEvent) (p : Progress)
      (full : r.brings? t = some rs) (after : p.syncs = false) :
    Effect r t ({ r with
      cache := ⟨SlotMap.ofRegistrations rs, some t.slot⟩
      syncing := false
      remote
      log }, p)
  /-- A sync ends without one. -/
  | fails {due : Nat} {reply : Reply (List Registration)} (remote : Remote) (log : List LogEvent)
      (p : Progress) (before : t.phase = .asking due 0 reply) (after : p.syncs = false)
      (empty : r.brings? t = .none) :
    Effect r t ({ r with syncing := false, remote, log }, p)

theorem brings_of_asking {r : Relay} {t : Task} {due left : Nat}
    {reply : Reply (List Registration)} (asks : t.phase = .asking due left reply) :
    r.brings? t = (reply.resolve r.remote.validators).toOption := by
  unfold brings?
  rw [asks]

theorem asks_of_brings {r : Relay} {t : Task} {rs : List Registration}
    (h : r.brings? t = some rs) : t.asks = true := by
  unfold brings? at h
  unfold Task.asks
  cases hphase : t.phase with
  | asking => rfl
  | _ => rw [hphase] at h; cases h

theorem syncs_of_asks {t : Task} (h : t.asks = true) : t.syncs = true := by
  unfold Task.asks at h
  unfold Task.syncs
  cases hphase : t.phase with
  | asking => rfl
  | _ => rw [hphase] at h; cases h

theorem effect_of_idle {r : Relay} {t : Task} {phase : Phase} {p : Progress}
    (hphase : t.phase = phase) (before : phase.syncs = false) (after : p.syncs = false)
    (registry : Registry) (remote : Remote) (log : List LogEvent) :
    Effect r t ({ r with registry, remote, log }, p) := by
  refine .none registry remote log p ?_ after
  unfold Task.syncs
  rw [hphase]
  exact before

/-- **Every move has one of these effects.** -/
theorem effect_move (r : Relay) (t : Task) : Effect r t (r.move t) := by
  have hturn := turn_move r t
  generalize r.move t = x at hturn ⊢
  cases hturn with
  | refused waits =>
    obtain ⟨remote, log, p, hends, hp⟩ := endValidators_frame r t (.error .busy)
    rw [hends]
    exact effect_of_idle waits rfl hp r.registry remote log
  | begins log waits _ down => exact .begins _ log _ waits down rfl
  | asksAgain pauses =>
    refine .goesOn _ r.log _ ?_ rfl ?_ ?_
    · unfold Task.syncs
      rw [pauses]
      rfl
    · unfold brings?
      rw [pauses]
    · intro due reply hphase
      rw [pauses] at hphase
      cases hphase
  | succeeds log rs asks answer =>
    obtain ⟨remote, log', p, hends, hp⟩ := endValidators_frame { r with
      cache := ⟨SlotMap.ofRegistrations rs, some t.slot⟩
      syncing := false
      log } t (.ok (SlotMap.ofRegistrations rs).size)
    have hfull : r.brings? t = some rs := by
      rw [brings_of_asking asks, answer]
      rfl
    rw [hends]
    exact .succeeds rs remote log' p hfull hp
  | fails log e asks answer =>
    obtain ⟨remote, log', p, hends, hp⟩ :=
      endValidators_frame { r with syncing := false, log } t (.error e)
    have hempty : r.brings? t = .none := by
      rw [brings_of_asking asks, answer]
      rfl
    rw [hends]
    exact .fails remote log' p asks hp hempty
  | pauses log e asks answer =>
    refine .goesOn _ log _ ?_ rfl ?_ ?_
    · unfold Task.syncs
      rw [asks]
      rfl
    · rw [brings_of_asking asks, answer]
      rfl
    · intro due reply hphase
      rw [asks] at hphase
      cases hphase
  | beginsLists waits =>
    obtain ⟨remote, log, p, hbegins, hp⟩ := beginLists_frame r t
    rw [hbegins]
    exact effect_of_idle waits rfl hp r.registry remote log
  | asksListsAgain pauses => exact effect_of_idle pauses rfl rfl r.registry _ r.log
  | listsSucceed log lists asks =>
    obtain ⟨log', hends⟩ := endLists_eq
      { r with registry := r.registry.update r.arrivals lists, log } t (.ok lists.size)
    rw [hends]
    exact effect_of_idle asks rfl rfl _ r.remote log'
  | listsFail log e asks =>
    obtain ⟨log', hends⟩ := endLists_eq { r with log } t (.error e)
    rw [hends]
    exact effect_of_idle asks rfl rfl r.registry r.remote log'
  | listsPause log e asks => exact effect_of_idle asks rfl rfl r.registry r.remote log

/-- A move leaves alone who else is there, what has ended, the time, the settings and the
overrides. -/
theorem move_frame (r : Relay) (t : Task) : ∃ cache syncing registry remote log,
    (r.move t).1 = { r with cache, syncing, registry, remote, log } := by
  have heffect := effect_move r t
  generalize r.move t = x at heffect ⊢
  cases heffect with
  | none registry remote log => exact ⟨_, _, registry, remote, log, rfl⟩
  | begins remote log => exact ⟨_, _, _, remote, log, rfl⟩
  | goesOn remote log => exact ⟨_, _, _, remote, log, rfl⟩
  | succeeds rs remote log => exact ⟨_, _, _, remote, log, rfl⟩
  | fails remote log => exact ⟨_, _, _, remote, log, rfl⟩

/-- **The flag and the phase move together**: a task takes up a sync as it raises the flag, and
puts the flag down as it leaves the sync. -/
theorem move_flag {r : Relay} {t : Task} (h : t.syncs = true → r.syncing = true) :
    (r.move t).1.syncing.toNat + t.syncs.toNat
      = r.syncing.toNat + (r.move t).2.syncs.toNat := by
  have hphase : t.syncs = t.phase.syncs := rfl
  have heffect := effect_move r t
  generalize r.move t = x at heffect ⊢
  cases heffect with
  | none registry remote log p before after => rw [before, after]
  | begins remote log p before down after =>
    rw [hphase, before, after, down]
    rfl
  | goesOn remote log p before after => rw [before, after]
  | succeeds rs remote log p full after =>
    have hsyncs := syncs_of_asks (asks_of_brings full)
    rw [hsyncs, after, h hsyncs]
    rfl
  | fails remote log p before after =>
    rw [hphase, before] at h
    rw [hphase, before, after, h rfl]
    rfl

/-- **A move leaves the cache alone unless it brings registrations.** -/
theorem move_cache (r : Relay) (t : Task) : (r.move t).1.cache =
    match r.brings? t with
    | none => r.cache
    | some rs => ⟨SlotMap.ofRegistrations rs, some t.slot⟩ := by
  have hidle : t.syncs = false → r.brings? t = .none := by
    intro hno
    cases hbrings : r.brings? t with
    | none => rfl
    | some rs =>
      rw [syncs_of_asks (asks_of_brings hbrings)] at hno
      cases hno
  have heffect := effect_move r t
  generalize r.move t = x at heffect ⊢
  cases heffect with
  | none registry remote log p before => rw [hidle before]
  | begins remote log p before =>
    rw [hidle]
    unfold Task.syncs
    rw [before]
    rfl
  | goesOn remote log p _ _ empty => rw [empty]
  | succeeds rs remote log p full => rw [full]
  | fails remote log p _ _ empty => rw [empty]

end Relay

end ProposerBook
