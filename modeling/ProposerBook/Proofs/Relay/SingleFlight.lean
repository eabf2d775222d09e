/-
One sync of the slot map at a time.

The flag is up just when one task is between raising it and putting it down, and never are
there two.  A sync puts it down with its last answer, good or bad.  Who comes while it is up
is told so in one move, which asks the other side nothing and leaves the flag to the task
that holds it.
-/
import ProposerBook.Proofs.Relay.Schedule

namespace ProposerBook

namespace Relay

/-! ### Counting -/

theorem Sound.syncing_iff {r : Relay} (h : Sound r) :
    r.syncing = true ↔ r.tasks.countP Task.syncs = 1 := by
  rw [h.flag]
  cases r.syncing with
  | true => exact ⟨fun _ => rfl, fun _ => rfl⟩
  | false => exact ⟨nofun, nofun⟩

theorem Sound.idle_iff {r : Relay} (h : Sound r) :
    r.syncing = false ↔ ∀ t ∈ r.tasks, t.syncs = false := by
  have hzero : r.syncing = false ↔ r.tasks.countP Task.syncs = 0 := by
    rw [h.flag]
    cases r.syncing with
    | true => exact ⟨nofun, nofun⟩
    | false => exact ⟨fun _ => rfl, fun _ => rfl⟩
  rw [hzero, List.countP_eq_zero]
  exact ⟨fun hn t ht => Bool.eq_false_iff.mpr (hn t ht),
    fun hn t ht => Bool.eq_false_iff.mp (hn t ht)⟩

/-- Two tasks that are in a sync are one. -/
theorem Sound.syncs_unique {r : Relay} (h : Sound r) {t u : Task} (ht : t ∈ r.tasks)
    (hu : u ∈ r.tasks) (htsyncs : t.syncs = true) (husyncs : u.syncs = true) : t = u := by
  have hone : (r.tasks.filter Task.syncs).length ≤ 1 := by
    rw [← List.countP_eq_length_filter, h.flag]
    exact Bool.toNat_le _
  have hmem : ∀ v ∈ r.tasks, v.syncs = true → v ∈ r.tasks.filter Task.syncs :=
    fun v hv hs => List.mem_filter.mpr ⟨hv, hs⟩
  obtain ⟨i, hi, hti⟩ := List.getElem_of_mem (hmem t ht htsyncs)
  obtain ⟨j, hj, huj⟩ := List.getElem_of_mem (hmem u hu husyncs)
  have hij : i = j := by omega
  subst hij
  exact hti.symm.trans huj

/-! ### The end of a sync -/

/-- The next move of `t` is the last of its sync: an answer has come, or no attempt is left. -/
def Concludes (r : Relay) (t : Task) : Prop :=
  ∃ due left reply, t.phase = .asking due left reply ∧
    (left = 0 ∨ ∃ rs, reply.resolve r.remote.validators = .ok rs)

theorem move_of_concludes {r : Relay} {t : Task} (h : r.Concludes t) :
    (r.move t).1.syncing = false := by
  obtain ⟨due, left, reply, hphase, hlast⟩ := h
  have heffect := effect_move r t
  generalize r.move t = x at heffect ⊢
  cases heffect with
  | none registry remote log p before =>
    unfold Task.syncs at before
    rw [hphase] at before
    cases before
  | begins remote log p before =>
    rw [hphase] at before
    cases before
  | goesOn remote log p _ _ empty more =>
    rcases hlast with hzero | ⟨rs, hrs⟩
    · rw [hzero] at hphase
      exact absurd hphase (more due reply)
    · rw [brings_of_asking hphase, hrs] at empty
      cases empty
  | succeeds => rfl
  | fails => rfl

/-! ### Who comes first -/

theorem due_of_waiting {t : Task} (waits : t.phase = .waiting) (now : Nat) :
    t.phase.due ≤ now := by
  rw [waits]
  exact Nat.zero_le now

theorem move_of_waiting {r : Relay} {t : Task} (waits : t.phase = .waiting)
    (kind : t.purpose ≠ .lists) : r.move t = r.beginValidators t := by
  unfold move
  rw [waits]
  cases hk : t.purpose with
  | lists => exact absurd hk kind
  | _ => rfl

/-- While the flag is down, who begins a sync raises it and makes a request. -/
theorem move_of_idle {r : Relay} {t : Task} (down : r.syncing = false)
    (waits : t.phase = .waiting) (kind : t.purpose ≠ .lists) :
    (r.move t).1.syncing = true ∧
      (r.move t).1.remote.validatorCalls = r.remote.validatorCalls + 1 := by
  rw [move_of_waiting waits kind]
  unfold beginValidators
  rw [if_neg (Bool.eq_false_iff.mp down)]
  exact ⟨rfl, rfl⟩

/-! ### Who comes too late -/

/-- Such a task is done with its first move, and nothing but the log tells of it. -/
theorem move_of_syncing {r : Relay} {t : Task} (up : r.syncing = true)
    (waits : t.phase = .waiting) (kind : t.purpose = .lookup ∨ t.purpose = .validators) :
    ∃ log, r.move t = ({ r with log }, .ends (.error .busy)) := by
  have hmove : r.move t = r.endValidators t (.error .busy) := by
    have hlists : t.purpose ≠ .lists := by
      rcases kind with hk | hk
      · rw [hk]; nofun
      · rw [hk]; nofun
    rw [move_of_waiting waits hlists]
    unfold beginValidators
    exact if_pos up
  have hno : t.goesOnToLists (.error .busy) = false := by
    unfold Task.goesOnToLists
    rcases kind with hk | hk
    · rw [hk]
    · rw [hk]
  obtain ⟨log, hends⟩ := endValidators_eq r t (.error .busy)
  rw [hno, if_neg (fun hc => Bool.false_ne_true hc.2)] at hends
  exact ⟨log, hmove.trans hends⟩

theorem moved_of_syncing {r : Relay} {before after : List Task} {t : Task}
    (up : r.syncing = true) (waits : t.phase = .waiting)
    (kind : t.purpose = .lookup ∨ t.purpose = .validators) :
    ∃ log, r.moved before t after = { r with
      tasks := before ++ after
      outcomes := (t.id, .error .busy) :: r.outcomes
      log } := by
  obtain ⟨log, hmove⟩ := move_of_syncing up waits kind
  exact ⟨log, by rw [moved_eq, hmove]; rfl⟩

/-- While the flag is up the first sync of all is not about to begin. -/
theorem Sound.kind_of_syncing {r : Relay} (h : Sound r) (up : r.syncing = true) {t : Task}
    (ht : t ∈ r.tasks) (waits : t.phase = .waiting) (kind : t.purpose ≠ .lists) :
    t.purpose = .lookup ∨ t.purpose = .validators := by
  cases hk : t.purpose with
  | lookup => exact Or.inl rfl
  | validators => exact Or.inr rfl
  | lists => exact absurd hk kind
  | startup =>
    have hone := h.syncing_iff.mp up
    have hno : t.syncs = false := by
      unfold Task.syncs
      rw [waits]
      rfl
    rw [h.alone t ht hk, List.countP_singleton, hno] at hone
    cases hone

theorem Sound.occur_move_of_syncing {r : Relay} (h : Sound r) (up : r.syncing = true) {t : Task}
    (ht : t ∈ r.tasks) (waits : t.phase = .waiting) (kind : t.purpose ≠ .lists) :
    ∃ log, r.occur (.move t.id) = { r with
      tasks := r.tasks.filter fun u => u.id != t.id
      outcomes := (t.id, .error .busy) :: r.outcomes
      log } := by
  obtain ⟨before, after, htasks⟩ := List.append_of_mem ht
  have hothers := h.others htasks
  have hrest : (r.tasks.filter fun u => u.id != t.id) = before ++ after := by
    have hkeeps : ∀ us : List Task, (∀ u ∈ us, u.id ≠ t.id) →
        (us.filter fun u => u.id != t.id) = us := by
      intro us hus
      rw [List.filter_eq_self]
      intro u hu
      exact bne_iff_ne.mpr (hus u hu)
    rw [htasks, List.filter_append, List.filter_cons_of_neg (by simp)]
    rw [hkeeps before fun u hu => hothers u (List.mem_append_left _ hu)]
    rw [hkeeps after fun u hu => hothers u (List.mem_append_right _ hu)]
  rw [h.occur_move htasks (due_of_waiting waits _), hrest]
  exact moved_of_syncing up waits (h.kind_of_syncing up ht waits kind)

/-- Who asks for a sync and waits for it is told at once. -/
theorem Sound.perform_of_syncing {r : Relay} (h : Sound r) (up : r.syncing = true)
    (slot : UInt64) (retries : Nat) :
    ∃ log, r.perform .validators slot retries = (some (.error .busy), { r with
      nextId := r.nextId + 1
      outcomes := (r.nextId, .error .busy) :: r.outcomes
      log }) := by
  let t : Task := { id := r.nextId, purpose := .validators, slot, retries }
  let s := r.begin true .validators slot retries
  have hundone : ¬(s.outcome? r.nextId).isSome = true := by
    have hnone : s.outcome? r.nextId = none := h.outcome?_nextId
    rw [hnone]
    nofun
  obtain ⟨log, hmoved⟩ : ∃ log, s.moved [] t r.tasks = _ :=
    moved_of_syncing (r := s) (t := t) up rfl (Or.inr rfl)
  have hturn : s.turn? = some (s.moved [] t r.tasks) := by
    have hfirst : firstReady s.now s.tasks = some ([], t, r.tasks) := by
      show firstReady r.now (t :: r.tasks) = _
      unfold firstReady
      exact if_pos (Nat.zero_le _)
    rw [turn?_eq, hfirst]
    rfl
  have htick : s.tick? none = some (s.moved [] t r.tasks) := by
    unfold tick?
    rw [hturn]
  have hdone : (s.moved [] t r.tasks).outcome? r.nextId = some (.error .busy) := by
    rw [hmoved]
    exact List.lookup_cons_self
  refine ⟨log, ?_⟩
  show ((s.await r.nextId).outcome? r.nextId, s.await r.nextId) = _
  rw [await_of_tick hundone htick, await_of_done (by rw [hdone]; rfl), hdone, hmoved]
  rfl

/-! ### The main result -/

/--
**There is one sync of the slot map at a time.**  The flag is up just when one task is in a
sync, so at most one request for registrations is on its way, and it goes down with the last
answer.  While it is down, whoever begins a sync raises it.  While it is up, whoever begins a
sync learns with one move that the book is busy, and nothing else changes.
-/
theorem single_flight {s : Relay} (h : Reachable s) :
    (s.syncing = true ↔ s.tasks.countP Task.syncs = 1) ∧
    (s.syncing = false ↔ ∀ t ∈ s.tasks, t.syncs = false) ∧
    s.tasks.countP Task.asks ≤ 1 ∧
    (∀ t ∈ s.tasks, t.phase.due ≤ s.now → s.Concludes t →
      (s.occur (.move t.id)).syncing = false) ∧
    (s.syncing = false → ∀ t ∈ s.tasks, t.phase = .waiting → t.purpose ≠ .lists →
      (s.occur (.move t.id)).syncing = true ∧
      (s.occur (.move t.id)).remote.validatorCalls = s.remote.validatorCalls + 1) ∧
    (s.syncing = true →
      (∀ t ∈ s.tasks, t.phase = .waiting → t.purpose ≠ .lists →
        ∃ log, s.occur (.move t.id) = { s with
          tasks := s.tasks.filter fun u => u.id != t.id
          outcomes := (t.id, .error .busy) :: s.outcomes
          log }) ∧
      ∀ slot retries, ∃ log,
        s.perform .validators slot retries = (some (.error .busy), { s with
          nextId := s.nextId + 1
          outcomes := (s.nextId, .error .busy) :: s.outcomes
          log })) := by
  have hsound := h.sound
  refine ⟨hsound.syncing_iff, hsound.idle_iff, ?_, ?_, ?_, ?_⟩
  · have hle : s.tasks.countP Task.asks ≤ s.tasks.countP Task.syncs :=
      List.countP_mono_left fun t _ ht => syncs_of_asks ht
    rw [hsound.flag] at hle
    exact Nat.le_trans hle (Bool.toNat_le _)
  · intro t ht hdue hlast
    obtain ⟨before, after, htasks⟩ := List.append_of_mem ht
    rw [hsound.occur_move htasks hdue]
    exact move_of_concludes hlast
  · intro down t ht waits kind
    obtain ⟨before, after, htasks⟩ := List.append_of_mem ht
    rw [hsound.occur_move htasks (due_of_waiting waits _)]
    exact move_of_idle down waits kind
  · intro up
    refine ⟨?_, hsound.perform_of_syncing up⟩
    intro t ht waits kind
    exact hsound.occur_move_of_syncing up ht waits kind

/-- A book in which one sync waits for its answer, and a second one is about to begin. -/
def contended : Relay :=
  let endpoint : Url := { scheme := [], authority := none, path := .plain [] }
  (opened { settings := { endpoint } }).run
    [.move 0, .move 0, .call (.sync false 5 0), .call (.sync false 6 0), .move 1]

theorem single_flight_contended :
    contended.syncing = true ∧ (contended.occur (.move 1)).syncing = false ∧
    ((contended.run [.move 1]).occur (.move 2)).syncing = true ∧
    (∃ log, contended.occur (.move 2) = { contended with
      tasks := contended.tasks.filter fun u => u.id != 2
      outcomes := (2, .error .busy) :: contended.outcomes
      log }) ∧
    ∃ log, contended.perform .validators 7 0 = (some (.error .busy), { contended with
      nextId := contended.nextId + 1
      outcomes := (contended.nextId, .error .busy) :: contended.outcomes
      log }) := by
  let first : Task :=
    { id := 1, purpose := .validators, slot := 5, retries := 0, phase := .asking 0 0 .standing }
  let second : Task := { id := 2, purpose := .validators, slot := 6, retries := 0 }
  have htasks : contended.tasks = [first, second] := rfl
  have hreach : Reachable contended := ⟨_, _, rfl⟩
  have hup : contended.syncing = true := rfl
  obtain ⟨-, -, -, hends, -, hbusy⟩ := single_flight hreach
  obtain ⟨-, -, -, -, hfree, -⟩ := single_flight (hreach.run [.move 1])
  obtain ⟨hmove, hperform⟩ := hbusy hup
  refine ⟨hup, ?_, ?_, ?_, hperform 7 0⟩
  · refine hends first ?_ (Nat.le_refl 0) ⟨0, 0, .standing, rfl, Or.inl rfl⟩
    rw [htasks]
    exact List.mem_cons_self
  · exact (hfree rfl second List.mem_cons_self rfl nofun).1
  · refine hmove second ?_ rfl nofun
    rw [htasks]
    exact List.mem_cons_of_mem _ List.mem_cons_self

end Relay

end ProposerBook
