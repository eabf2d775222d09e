/-
What the scheduler does is a run.

The scheduler lets time pass only while nothing can move, and of the tasks that can move
it takes the first.  Each of its turns is the move of a task whose time has come, and each
of its waits lets time pass.  So what holds of every book that can be reached holds of
every book that the program ever has.
-/
import ProposerBook.Proofs.Relay.Tasks

namespace ProposerBook

namespace Relay

theorem Reachable.occur {r : Relay} (h : Reachable r) (e : Event) : Reachable (r.occur e) :=
  h.run [e]

/-- Whoever has the book may do anything with it. -/
theorem Reachable.serve {r : Relay} (h : Reachable r) (filled : r.isOpening = false) (c : Call) :
    Reachable (r.serve c) := by
  have hoccur : r.occur (.call c) = r.serve c := by
    show (if r.isOpening then r else r.serve c) = r.serve c
    rw [filled]
    rfl
  rw [← hoccur]
  exact h.occur _

/-! ### Turns -/

theorem turn?_eq (r : Relay) :
    r.turn? = (firstReady r.now r.tasks).map fun x => r.moved x.1 x.2.1 x.2.2 := by
  unfold turn?
  refine congrArg (fun f => (firstReady r.now r.tasks).map f) ?_
  funext x
  obtain ⟨before, t, after⟩ := x
  dsimp only
  unfold moved
  cases r.move t with
  | mk s p => cases p <;> rfl

theorem firstReady_due {now : Nat} {ts before after : List Task} {t : Task}
    (h : firstReady now ts = some (before, t, after)) : t.phase.due ≤ now := by
  induction ts generalizing before with
  | nil => cases h
  | cons u us ih =>
    unfold firstReady at h
    split at h
    · rename_i hdue
      cases h
      exact hdue
    · rw [Option.map_eq_some_iff] at h
      obtain ⟨⟨b, x, a⟩, hb, he⟩ := h
      cases he
      exact ih hb

/-- **A turn is the move of a task whose time has come.** -/
theorem turn?_eq_some {r s : Relay} (h : Sound r) (turn : r.turn? = some s) :
    ∃ id, s = r.occur (.move id) := by
  rw [turn?_eq, Option.map_eq_some_iff] at turn
  obtain ⟨⟨before, t, after⟩, hready, rfl⟩ := turn
  exact ⟨t.id, (h.occur_move (firstReady_eq hready) (firstReady_due hready)).symm⟩

theorem turn?_now {r s : Relay} (turn : r.turn? = some s) : s.now = r.now := by
  rw [turn?_eq, Option.map_eq_some_iff] at turn
  obtain ⟨⟨before, t, after⟩, -, rfl⟩ := turn
  obtain ⟨cache, syncing, registry, remote, log, hmove⟩ := move_frame r t
  show (r.move t).1.now = r.now
  rw [hmove]

theorem waitUntil_eq (r : Relay) (t : Nat) : r.waitUntil t = r.occur (.pass (t - r.now)) := by
  have hmax : max r.now t = r.now + (t - r.now) := by omega
  show { r with now := max r.now t } = { r with now := r.now + (t - r.now) }
  rw [hmax]

theorem Reachable.turn? {r s : Relay} (h : Reachable r) (turn : r.turn? = some s) :
    Reachable s := by
  obtain ⟨id, rfl⟩ := turn?_eq_some h.sound turn
  exact h.occur _

theorem Reachable.tick? {r s : Relay} {limit : Option Nat} (h : Reachable r)
    (tick : r.tick? limit = some s) : Reachable s := by
  unfold Relay.tick? at tick
  split at tick
  · rename_i hturn
    cases tick
    exact h.turn? hturn
  · split at tick
    · cases tick
    · split at tick
      · rw [waitUntil_eq] at tick
        exact (h.occur _).turn? tick
      · cases tick

/-! ### Many turns -/

theorem runUntil_of_tick {r s : Relay} {limit : Nat} (tick : r.tick? (some limit) = some s) :
    r.runUntil limit = s.runUntil limit := by
  rw [runUntil]
  split
  · rename_i hs
    rw [tick] at hs
    cases hs
    rfl
  · rename_i hs
    rw [tick] at hs
    cases hs

theorem runUntil_of_rest {r : Relay} {limit : Nat} (rest : r.tick? (some limit) = none) :
    r.runUntil limit = r := by
  rw [runUntil]
  split
  · rename_i hs
    rw [rest] at hs
    cases hs
  · rfl

theorem Reachable.runUntil {r : Relay} (h : Reachable r) (limit : Nat) :
    Reachable (r.runUntil limit) := by
  induction r using Relay.runUntil.induct limit with
  | case1 r s hs ih =>
    rw [runUntil_of_tick hs]
    exact ih (h.tick? hs)
  | case2 r hs =>
    rw [runUntil_of_rest hs]
    exact h

theorem Reachable.settle {r : Relay} (h : Reachable r) : Reachable r.settle := h.runUntil _

theorem tick?_now {r s : Relay} {limit : Nat} (early : r.now ≤ limit)
    (tick : r.tick? (some limit) = some s) : s.now ≤ limit := by
  unfold tick? at tick
  split at tick
  · rename_i hturn
    cases tick
    rw [turn?_now hturn]
    exact early
  · split at tick
    · cases tick
    · split at tick
      · rename_i due _ hdue
        rw [turn?_now tick]
        have : due ≤ limit := by simpa using hdue
        show max r.now due ≤ limit
        omega
      · cases tick

theorem runUntil_now {r : Relay} {limit : Nat} (early : r.now ≤ limit) :
    (r.runUntil limit).now ≤ limit := by
  induction r using runUntil.induct limit with
  | case1 r s hs ih =>
    rw [runUntil_of_tick hs]
    exact ih (tick?_now early hs)
  | case2 r hs =>
    rw [runUntil_of_rest hs]
    exact early

theorem Reachable.advance {r : Relay} (h : Reachable r) (ms : Nat) : Reachable (r.advance ms) := by
  have hnow : (r.runUntil (r.now + ms)).now ≤ r.now + ms := runUntil_now (Nat.le_add_right _ _)
  have hadvance : r.advance ms = (r.runUntil (r.now + ms)).occur
      (.pass (r.now + ms - (r.runUntil (r.now + ms)).now)) := by
    show { r.runUntil (r.now + ms) with now := r.now + ms } = { r.runUntil (r.now + ms) with
      now := (r.runUntil (r.now + ms)).now + (r.now + ms - (r.runUntil (r.now + ms)).now) }
    rw [Nat.add_sub_cancel' hnow]
  rw [hadvance]
  exact (h.runUntil _).occur _

theorem await_of_done {r : Relay} {id : Nat} (done : (r.outcome? id).isSome = true) :
    r.await id = r := by
  rw [await, if_pos done]

theorem await_of_tick {r s : Relay} {id : Nat} (undone : ¬(r.outcome? id).isSome = true)
    (tick : r.tick? none = some s) : r.await id = s.await id := by
  rw [await, if_neg undone]
  split
  · rename_i hs
    rw [tick] at hs
    cases hs
    rfl
  · rename_i hs
    rw [tick] at hs
    cases hs

theorem await_of_rest {r : Relay} {id : Nat} (rest : r.tick? none = none) : r.await id = r := by
  rw [await]
  split
  · rfl
  · split
    · rename_i hs
      rw [rest] at hs
      cases hs
    · rfl

theorem Reachable.await {r : Relay} (h : Reachable r) (id : Nat) : Reachable (r.await id) := by
  induction r using Relay.await.induct id with
  | case1 r hdone =>
    rw [await_of_done hdone]
    exact h
  | case2 r hdone s hs ih =>
    rw [await_of_tick hdone hs]
    exact ih (h.tick? hs)
  | case3 r _ hs =>
    rw [await_of_rest hs]
    exact h

/-! ### What the program does -/

theorem Reachable.perform {r : Relay} (h : Reachable r) (filled : r.isOpening = false)
    {purpose : Purpose} (kind : purpose = .validators ∨ purpose = .lists) (slot : UInt64)
    (retries : Nat) : Reachable (r.perform purpose slot retries).2 := by
  rcases kind with rfl | rfl
  · exact (h.serve filled (.sync true slot retries)).await r.nextId
  · exact (h.serve filled (.syncLists true slot retries)).await r.nextId

theorem submit_eq (r : Relay) (b : Block) :
    (r.submit b).2 = r.handIn b ∨ ∃ ms, (r.submit b).2 = (r.handIn b).advance ms := by
  unfold submit handIn
  dsimp only
  generalize r.note _ _ _ _ = q
  cases q.submission b with
  | error e => exact Or.inl rfl
  | ok s => exact Or.inr ⟨_, rfl⟩

theorem Reachable.submit {r : Relay} (h : Reachable r) (filled : r.isOpening = false) (b : Block) :
    Reachable (r.submit b).2 := by
  have hhanded : Reachable (r.handIn b) := h.serve filled (.submit b)
  rcases submit_eq r b with hsubmit | ⟨ms, hsubmit⟩
  · rw [hsubmit]
    exact hhanded
  · rw [hsubmit]
    exact hhanded.advance ms

end Relay

end ProposerBook
