/-
What a lookup sets off.

A lookup that finds the cache up to date changes nothing but the log.  One that finds it behind
its slot starts a task, and no more; what comes of the task is settled when it first moves.  If
the flag is up then, the task ends at once and asks for nothing.  Else it holds the flag from its
first request to its last answer, so nobody else touches the cache meanwhile: it asks once, and
once more if that fails, and either leaves the cache of the answer or the cache as it was.
-/
import ProposerBook.Proofs.Relay.Budget
import ProposerBook.Proofs.Relay.Epochs

namespace ProposerBook

/-- Up to date is a cache from the epoch of the slot, or from a later one. -/
theorem Cache.isStale_eq_false_iff {c : Cache} {slot : UInt64} : c.isStale slot = false ↔
    ∃ last, c.lastSynced = some last ∧ epoch slot ≤ epoch last := by
  cases hlast : c.lastSynced with
  | none =>
    rw [Cache.isStale_of_none hlast]
    exact ⟨nofun, nofun⟩
  | some last =>
    rw [← Bool.not_eq_true, Cache.isStale_of_some hlast, UInt64.not_lt]
    refine ⟨fun hle => ⟨last, rfl, hle⟩, ?_⟩
    rintro ⟨last', hlast', hle⟩
    cases hlast'
    exact hle

namespace Relay

open Pursuit

/-! ### The lookup -/

variable {r s : Relay} {t : Task} {m : Moment} {ms : List Moment}

theorem lookup_of_fresh {slot : UInt64} (fresh : r.cache.isStale slot = false) :
    ∃ log, (r.lookup slot).2 = { r with log } := by
  obtain ⟨log, hlog⟩ := noteOverride_eq r slot
  refine ⟨log, ?_⟩
  unfold lookup
  simp only [fresh, Bool.false_eq_true, if_false]
  exact hlog

theorem lookup_of_stale {slot : UInt64} (stale : r.cache.isStale slot = true) :
    ∃ log, (r.lookup slot).2 = { r with
      tasks := r.tasks ++ [{ id := r.nextId, purpose := .lookup, slot, retries := 1 }]
      nextId := r.nextId + 1
      log } := by
  obtain ⟨log, hlog⟩ := noteOverride_eq (r.spawn .lookup slot lookupRetries).2 slot
  refine ⟨log, ?_⟩
  unfold lookup
  simp only [stale, if_true]
  exact hlog

/-! ### The sync of a lookup -/

/-- What the sync of a lookup's task `t`, which begins with `m`, has come to. -/
inductive Refresh (t : Task) (m : Moment) : List Moment → Prop
  /-- The first request succeeds. -/
  | atOnce {us after : List Moment} {last : Moment} (rs : List Registration)
      (answers : validators.answers (m :: (us ++ last :: after)) = [.ok rs])
      (calls : ((m :: (us ++ last :: after)).map Moment.calls).sum = 1)
      (ends : last.EndsValidators (.ok (SlotMap.ofRegistrations rs).size))
      (cache : last.after.cache = ⟨SlotMap.ofRegistrations rs, some t.slot⟩) :
      Refresh t m (us ++ last :: after)
  /-- The first request fails, and the second one succeeds. -/
  | afterwards {us after : List Moment} {last : Moment} (e : RelayError) (rs : List Registration)
      (answers : validators.answers (m :: (us ++ last :: after)) = [.error e, .ok rs])
      (calls : ((m :: (us ++ last :: after)).map Moment.calls).sum = 2)
      (ends : last.EndsValidators (.ok (SlotMap.ofRegistrations rs).size))
      (cache : last.after.cache = ⟨SlotMap.ofRegistrations rs, some t.slot⟩) :
      Refresh t m (us ++ last :: after)
  /-- Both fail.  As long as the cache stays so, a lookup that would have started a sync before
  starts one now. -/
  | never {us after : List Moment} {last : Moment} (e₁ e₂ : RelayError)
      (answers : validators.answers (m :: (us ++ last :: after)) = [.error e₁, .error e₂])
      (calls : ((m :: (us ++ last :: after)).map Moment.calls).sum = 2)
      (ends : last.EndsValidators (.error e₂))
      (cache : last.after.cache = m.book.cache)
      (again : ∀ slot, m.book.cache.isStale slot = true → ∀ r : Relay, r.cache = last.after.cache →
        (r.lookup slot).2.nextId = r.nextId + 1) :
      Refresh t m (us ++ last :: after)
  /-- No answer has decided so far. -/
  | underway {ms : List Moment} (errors : List RelayError) (few : errors.length ≤ 1)
      (answers : validators.answers (m :: ms) = errors.map .error)
      (calls : 1 ≤ ((m :: ms).map Moment.calls).sum ∧
        ((m :: ms).map Moment.calls).sum ≤ errors.length + 1)
      (goesOn : ∀ u ∈ m :: ms, ∃ phase, u.progress = .goesOn phase) : Refresh t m ms

/-- What a task hears is what its move brings. -/
theorem brings_of_hears {left : Nat} {x : Except RelayError (List Registration)}
    (h : validators.hears? m = some (left, x)) : m.book.brings? m.task = x.toOption := by
  unfold Pursuit.hears? at h
  rw [Option.map_eq_some_iff] at h
  obtain ⟨⟨left', reply⟩, hawaits, hx⟩ := h
  cases hphase : m.task.phase with
  | asking due n reply' =>
    rw [hphase] at hawaits
    cases hawaits
    cases hx
    exact brings_of_asking hphase
  | _ =>
    rw [hphase] at hawaits
    cases hawaits

/-- **The cache after the answer that decides.** -/
theorem cache_of_decided {retries : Nat} {us : List Moment} {last : Moment}
    {errors : List RelayError} {x : Except RelayError (List Registration)}
    (decided : validators.Decided retries m us last errors x) :
    last.after.cache = match x with
      | .ok rs => ⟨SlotMap.ofRegistrations rs, some last.task.slot⟩
      | .error _ => m.book.cache := by
  obtain ⟨left, hhears⟩ := decided.hears
  have hcache : last.after.cache = _ := move_cache last.book last.task
  rw [brings_of_hears hhears] at hcache
  cases x with
  | ok rs => exact hcache
  | error e => exact hcache.trans (decided.held rfl)

theorem refresh (thread : Thread r t (m :: ms)) (waits : t.phase = .waiting)
    (kind : t.purpose ≠ .lists) (once : t.retries = 1) (down : m.book.syncing = false) :
    Refresh t m ms := by
  obtain ⟨htask, -, -⟩ := thread.uncons
  have hasks : validators.Asks m 1 := by
    rw [← htask] at waits kind once
    exact once ▸ asks_validators waits kind down
  cases Pursuit.lawful_validators.budget thread hasks with
  | @pending ms errors pending =>
    refine .underway errors pending.within pending.answers ?_ ?_
    · rw [sum_calls]
      refine ⟨?_, pending.requests⟩
      rw [delays_cons_of_some (Pursuit.lawful_validators.delay?_of_asks hasks)]
      exact Nat.succ_le_succ (Nat.zero_le _)
    · intro u hu
      obtain ⟨phase, hgoes, -⟩ := pending.busy u hu
      exact ⟨phase, hgoes⟩
  | @decided us after last errors x decided quiet =>
    obtain ⟨⟨phase, hlast⟩, -, -⟩ := thread.keeps (m :: us)
    have hslot : last.task.slot = t.slot := by rw [hlast]
    have hcache := cache_of_decided decided
    obtain ⟨hanswers, hcalls⟩ := decided.total quiet
    rw [← sum_calls] at hcalls
    have hwithin := decided.within
    cases errors with
    | nil =>
      cases x with
      | ok rs => exact .atOnce rs hanswers hcalls decided.returns (hslot ▸ hcache)
      | error e =>
        rcases decided.decides with ⟨a, ha⟩ | hzero
        · cases ha
        · cases hzero
    | cons e errors =>
      obtain rfl : errors = [] := by
        cases errors with
        | nil => rfl
        | cons _ _ =>
          simp only [List.length_cons] at hwithin
          omega
      cases x with
      | ok rs => exact .afterwards e rs hanswers hcalls decided.returns (hslot ▸ hcache)
      | error e₂ =>
        have hsame : last.after.cache = m.book.cache := hcache
        refine .never e e₂ hanswers hcalls decided.returns hsame ?_
        intro slot hstale r hr
        rw [← hsame, ← hr] at hstale
        obtain ⟨log, hlookup⟩ := lookup_of_stale hstale
        rw [hlookup]

/-! ### The main result -/

/--
**A lookup refreshes the cache just when it has to.**  If the cache is from the epoch of the slot
or a later one, nothing is started and nothing is asked for.  If it is from an earlier one, or
empty, one task is started.  The task finds the flag up as it begins, and ends at once without a
request; or it asks once, and a second time if that fails.  A success leaves the cache of its
answer, and two failures leave the cache as it was, so that whatever was behind is still so.  The
task ends if enough time passes.  And whatever happens, nothing but a success touches the cache.
-/
theorem lookup_refreshes {s : Relay} (h : Reachable s) (slot : UInt64) :
    ((∃ last, s.cache.lastSynced = some last ∧ epoch slot ≤ epoch last) →
      ∃ log, (s.lookup slot).2 = { s with log }) ∧
    ((¬∃ last, s.cache.lastSynced = some last ∧ epoch slot ≤ epoch last) →
      let t : Task := { id := s.nextId, purpose := .lookup, slot, retries := 1 }
      let q := (s.lookup slot).2
      (∃ log, q = { s with tasks := s.tasks ++ [t], nextId := s.nextId + 1, log }) ∧
      (s.isOpening = false →
        (∀ es m ms, q.course t.id es = m :: ms → m.task = t ∧
          (m.book.syncing = true → ms = [] ∧ ∃ log,
            m.book.move t = ({ m.book with log }, .ends (.error .busy))) ∧
          (m.book.syncing = false → Refresh t m ms)) ∧
        ∃ limit, ∀ later, limit ≤ later → ∃ es, q.runUntil later = q.run es ∧
          ∃ m ∈ q.course t.id es, ∃ o, m.progress = .ends o)) ∧
    ∀ e, (s.occur e).cache = s.cache ∨ ∃ target rs, s.Succeeds e target rs ∧
      (s.occur e).cache = ⟨SlotMap.ofRegistrations rs, some target⟩ := by
  refine ⟨fun hfresh => lookup_of_fresh (Cache.isStale_eq_false_iff.mpr hfresh), ?_, ?_⟩
  · intro hstale t q
    have hq : ∃ log, q = { s with tasks := s.tasks ++ [t], nextId := s.nextId + 1, log } := by
      refine lookup_of_stale ?_
      rw [← Bool.not_eq_false, Cache.isStale_eq_false_iff]
      exact hstale
    refine ⟨hq, fun filled => ?_⟩
    have hsound : Sound q := (h.serve filled (.lookup slot)).sound
    have ht : t ∈ q.tasks := by
      obtain ⟨log, hlog⟩ := hq
      rw [hlog]
      exact List.mem_append_right _ List.mem_cons_self
    refine ⟨?_, ?_⟩
    · intro es m ms hcourse
      have hthread := thread_course hsound ht es
      rw [hcourse] at hthread
      refine ⟨hthread.uncons.1, ?_, fun down => refresh hthread rfl nofun rfl down⟩
      intro up
      obtain ⟨hnone, -, hbusy⟩ := hsound.course_of_syncing ht rfl nofun hcourse up
      exact ⟨hnone, hbusy⟩
    · obtain ⟨limit, hlimit⟩ := exists_rest q
      refine ⟨limit, fun later hlater => ?_⟩
      obtain ⟨es, hrun, hled⟩ := hsound.runUntil_led later
      refine ⟨es, hrun, ?_⟩
      rcases hsound.course_ends ht es with ⟨m, hm, o, hends, -⟩ | ⟨-, -, ⟨u, hu, -⟩ | habort⟩
      · exact ⟨m, hm, o, hends⟩
      · rw [← hrun, hlimit later hlater] at hu
        cases hu
      · exact absurd habort (hled.still _)
  · intro e
    rcases h.sound.occur_cache e with ⟨target, rs, hsucceeds, hcache⟩ | ⟨-, hcache⟩
    · exact Or.inr ⟨target, rs, hsucceeds, hcache⟩
    · exact Or.inl hcache

/-- A filled book whose other side does not answer any more. -/
def deserted : Relay :=
  (opened (serving [])).run [.move 0, .move 0, .move 0,
    .answers { validatorPlan := [⟨0, .answer (.error .notFound)⟩, ⟨0, .answer (.error .busy)⟩] }]

/-- A lookup in the epoch that the cache is from changes nothing.  The task of one in the next epoch
asks twice. -/
theorem lookup_refreshes_deserted :
    let es := [Event.move 1, .move 1, .pass 1000, .move 1, .move 1]
    (∃ log, (deserted.lookup 31).2 = { deserted with log }) ∧
      (deserted.lookup 32).2.nextId = deserted.nextId + 1 ∧
      ∃ m ms, (deserted.lookup 32).2.course 1 es = m :: ms ∧
        ((m :: ms).map Moment.calls).sum = 2 ∧
        Refresh { id := 1, purpose := .lookup, slot := 32, retries := 1 } m ms := by
  intro es
  have hreach : Reachable deserted := ⟨_, _, rfl⟩
  have hlast : deserted.cache.lastSynced = some 0 := rfl
  have hbehind : ¬∃ last, deserted.cache.lastSynced = some last ∧ epoch 32 ≤ epoch last := by
    rintro ⟨last, hsome, hle⟩
    rw [hlast] at hsome
    cases hsome
    exact absurd hle (by decide)
  obtain ⟨hfresh, -, -⟩ := lookup_refreshes hreach 31
  obtain ⟨-, hstale, -⟩ := lookup_refreshes hreach 32
  obtain ⟨⟨log, hlookup⟩, hruns⟩ := hstale hbehind
  obtain ⟨hmoves, -⟩ := hruns rfl
  refine ⟨hfresh ⟨0, hlast, by decide⟩, by rw [hlookup], _, _, rfl, rfl, ?_⟩
  exact (hmoves es _ _ rfl).2.2 rfl

end Relay

end ProposerBook
