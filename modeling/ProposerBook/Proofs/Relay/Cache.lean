/-
What the cache holds.

One kind of move touches the cache: that of a task which waits for registrations and gets
them, and it replaces the cache as a whole.  So at any time the cache is what the sync that
succeeded last made of its answer, or empty where none has.  As there is one sync at a time,
no other one can succeed while a sync goes on; one that does not succeed leaves the cache as
it found it, however often it asks.
-/
import ProposerBook.Proofs.Proposer.SlotMap
import ProposerBook.Proofs.Relay.SingleFlight

namespace ProposerBook

namespace Relay

/-! ### Success -/

/-- With `e` a sync for `slot` succeeds, and `rs` is the answer. -/
def Succeeds (r : Relay) (e : Event) (slot : UInt64) (rs : List Registration) : Prop :=
  ∃ t ∈ r.tasks, t.phase.due ≤ r.now ∧ e = .move t.id ∧ t.slot = slot ∧ r.brings? t = some rs

theorem serve_cache (r : Relay) (c : Call) : (r.serve c).cache = r.cache := by
  have hserved := served_serve r c
  generalize r.serve c = s at hserved ⊢
  cases hserved with
  | answers => rfl
  | hands => rfl
  | begins => rfl
  | drops id => rfl

/-! ### One event -/

/-- **Whatever happens, the cache becomes that of a sync that succeeds with it, or stays.** -/
theorem Sound.occur_cache {r : Relay} (h : Sound r) (e : Event) :
    (∃ slot rs, r.Succeeds e slot rs ∧
      (r.occur e).cache = ⟨SlotMap.ofRegistrations rs, some slot⟩) ∨
    ((∀ slot rs, ¬r.Succeeds e slot rs) ∧ (r.occur e).cache = r.cache) := by
  have hstill : (∀ id, e ≠ .move id) → ∀ slot rs, ¬r.Succeeds e slot rs := by
    intro he slot rs hs
    obtain ⟨t, -, -, hmove, -⟩ := hs
    exact he t.id hmove
  cases e with
  | call c =>
    refine Or.inr ⟨hstill nofun, ?_⟩
    show (if r.isOpening then r else r.serve c).cache = r.cache
    by_cases hopening : r.isOpening = true
    · rw [if_pos hopening]
    · rw [if_neg hopening, serve_cache]
  | move id =>
    by_cases hready : ∃ t ∈ r.tasks, t.id = id ∧ t.phase.due ≤ r.now
    · obtain ⟨t, ht, rfl, hdue⟩ := hready
      obtain ⟨before, after, htasks⟩ := List.append_of_mem ht
      rw [cache_of_ready (h.ready htasks hdue), move_cache]
      cases hbrings : r.brings? t with
      | some rs => exact Or.inl ⟨t.slot, rs, ⟨t, ht, hdue, rfl, rfl, hbrings⟩, rfl⟩
      | none =>
        refine Or.inr ⟨?_, rfl⟩
        intro slot rs hs
        obtain ⟨u, hu, -, hmove, -, hrs⟩ := hs
        rw [Event.move.injEq] at hmove
        rw [h.eq_of_id ht hu hmove.symm, hbrings] at hrs
        cases hrs
    · refine Or.inr ⟨?_, ?_⟩
      · intro slot rs hs
        obtain ⟨u, hu, hdue, hmove, -⟩ := hs
        rw [Event.move.injEq] at hmove
        exact hready ⟨u, hu, hmove.symm, hdue⟩
      · unfold occur
        simp only
        split
        · rfl
        · rename_i before t after hsome
          obtain ⟨htasks, hid, hdue⟩ := ready?_eq_some hsome
          have ht : t ∈ r.tasks := by
            rw [htasks]
            exact List.mem_append_right _ List.mem_cons_self
          exact absurd ⟨t, ht, hid, hdue⟩ hready
  | pass ms => exact Or.inr ⟨hstill nofun, rfl⟩
  | answers remote => exact Or.inr ⟨hstill nofun, rfl⟩
  | register slot p => exact Or.inr ⟨hstill nofun, rfl⟩
  | unregister slot => exact Or.inr ⟨hstill nofun, rfl⟩
  | registry o => exact Or.inr ⟨hstill nofun, rfl⟩

/-! ### Many events -/

/-- No sync succeeds while `es` happen. -/
def Fruitless (r : Relay) : List Event → Prop
  | [] => True
  | e :: es => (∀ slot rs, ¬r.Succeeds e slot rs) ∧ (r.occur e).Fruitless es

/-- **The last success makes the cache.** -/
theorem Sound.run_cache {r : Relay} (h : Sound r) (es : List Event) :
    (r.Fruitless es ∧ (r.run es).cache = r.cache) ∨
    ∃ ds e fs slot rs, es = ds ++ e :: fs ∧ (r.run ds).Succeeds e slot rs ∧
      (r.run (ds ++ [e])).Fruitless fs ∧
      (r.run es).cache = ⟨SlotMap.ofRegistrations rs, some slot⟩ := by
  induction es generalizing r with
  | nil => exact Or.inl ⟨trivial, rfl⟩
  | cons e es ih =>
    rw [run_cons]
    rcases ih (sound_occur h e) with ⟨hvain, hstays⟩ | ⟨ds, e', fs, slot, rs, hes, hs, hvain, hc⟩
    · rw [hstays]
      rcases h.occur_cache e with ⟨slot, rs, hs, hcache⟩ | ⟨hno, hcache⟩
      · exact Or.inr ⟨[], e, es, slot, rs, rfl, hs, hvain, hcache⟩
      · exact Or.inl ⟨⟨hno, hvain⟩, hcache⟩
    · rw [hc]
      subst hes
      exact Or.inr ⟨e :: ds, e', fs, slot, rs, rfl, hs, hvain, rfl⟩

/-! ### A sync that does not succeed -/

/-- The task named `id` is in its sync while `es` happen, but the sync does not succeed.  With the
last of them it may come to its end. -/
def Unavailing (r : Relay) (id : Nat) : List Event → Prop
  | [] => True
  | e :: es =>
    (∃ t ∈ r.tasks, t.id = id ∧ t.syncs = true) ∧
    (e = .move id → ∀ slot rs, ¬r.Succeeds e slot rs) ∧
    (r.occur e).Unavailing id es

/-- While a task is in its sync nobody but this task can change the cache. -/
theorem Sound.run_cache_of_unavailing {r : Relay} (h : Sound r) {id : Nat} {es : List Event}
    (vain : r.Unavailing id es) : (r.run es).cache = r.cache := by
  induction es generalizing r with
  | nil => rfl
  | cons e es ih =>
    obtain ⟨⟨t, ht, hid, hsyncs⟩, hno, hrest⟩ := vain
    rw [run_cons, ih (sound_occur h e) hrest]
    rcases h.occur_cache e with ⟨slot, rs, hs, -⟩ | ⟨-, hcache⟩
    · -- Who succeeds is in a sync too, so it is the same task.
      have hsucceeds := hs
      obtain ⟨u, hu, -, hmove, -, hbrings⟩ := hs
      have hut : u = t := h.syncs_unique hu ht (syncs_of_asks (asks_of_brings hbrings)) hsyncs
      rw [hut, hid] at hmove
      exact absurd hsucceeds (hno hmove slot rs)
    · exact hcache

/-- A sync that is about to begin succeeds no sooner than after its first move. -/
theorem Sound.occur_cache_of_waiting {r : Relay} (h : Sound r) {t : Task} (ht : t ∈ r.tasks)
    (waits : t.phase = .waiting) : (r.occur (.move t.id)).cache = r.cache := by
  rcases h.occur_cache (.move t.id) with ⟨slot, rs, hs, -⟩ | ⟨-, hcache⟩
  · obtain ⟨u, hu, -, hmove, -, hbrings⟩ := hs
    rw [Event.move.injEq] at hmove
    rw [h.eq_of_id ht hu hmove.symm] at hbrings
    unfold brings? at hbrings
    rw [waits] at hbrings
    cases hbrings
  · exact hcache

/-! ### The main result -/

/--
**The cache is that of one answer.**  After any run of a new book it is empty, if no sync has
succeeded, and else just what the last success made of its answer, with the slot that it was
for; so whatever it says comes from that answer.  A sync that does not succeed, or is refused,
leaves it as it was.
-/
theorem cache_integrity (r : Relay) (es : List Event) :
    let s := (opened r).run es
    (((opened r).Fruitless es ∧ s.cache = ⟨.empty, none⟩) ∨
      ∃ ds e fs target rs, es = ds ++ e :: fs ∧ ((opened r).run ds).Succeeds e target rs ∧
        ((opened r).run (ds ++ [e])).Fruitless fs ∧
        s.cache = ⟨SlotMap.ofRegistrations rs, some target⟩ ∧
        (∀ slot p, s.cache.slots.get? slot = some p →
          ∃ x ∈ rs, x.slot = slot ∧ x.preferences? = some p) ∧
        ∀ slot, (∀ x ∈ rs, x.slot ≠ slot) → s.cache.slots.get? slot = none) ∧
    ∀ t ∈ s.tasks, t.phase = .waiting → ∀ fs, (s.occur (.move t.id)).Unavailing t.id fs →
      (s.run (.move t.id :: fs)).cache = s.cache := by
  intro s
  have hsound : Sound s := Reachable.sound ⟨r, es, rfl⟩
  refine ⟨?_, ?_⟩
  · rcases (sound_opened r).run_cache es with
      ⟨hvain, hcache⟩ | ⟨ds, e, fs, target, rs, hes, hs, hvain, hcache⟩
    · exact Or.inl ⟨hvain, hcache⟩
    · refine Or.inr ⟨ds, e, fs, target, rs, hes, hs, hvain, hcache, ?_, ?_⟩
      · intro slot p hget
        rw [hcache, SlotMap.get?_ofRegistrations_eq_some_iff] at hget
        obtain ⟨before, x, after, rfl, hslot, hp, -⟩ := hget
        exact ⟨x, List.mem_append_right _ List.mem_cons_self, hslot, hp⟩
      · intro slot habsent
        rw [hcache]
        exact SlotMap.get?_ofRegistrations_eq_none fun x hx hslot => absurd hslot (habsent x hx)
  · intro t ht waits fs vain
    rw [run_cons, Sound.run_cache_of_unavailing (sound_occur hsound _) vain]
    exact hsound.occur_cache_of_waiting ht waits

/-- What a validator asks of the block for slot 7. -/
def pledged : Registration :=
  { slot := 7
    entry := {
      message := {
        feeRecipient := "0x0101010101010101010101010101010101010101", gasLimit := 30000000
        timestamp := 0, pubkey := "0xAA" }
      signature := "" }
    complianceList := none }

/-- A new book whose other side answers once, and then fails twice. -/
def failing : Relay :=
  { settings := { endpoint := { scheme := [], authority := none, path := .plain [] } }
    retryDelay := 0
    remote := {
      validatorPlan := [⟨0, .standing⟩, ⟨0, .answer (.error .notFound)⟩,
        ⟨0, .answer (.error .notFound)⟩]
      validators := [pledged] } }

/-- The first sync brings a registration.  A second one fails with both its attempts, and what the
first one brought is still there. -/
theorem cache_integrity_failing :
    let es : List Event := [.move 0, .move 0, .call (.sync true 40 1)]
    let s := (opened failing).run es
    let later := s.run [.move 1, .move 1, .move 1, .move 1]
    let p : Preferences := ⟨"0xaa", ⟨List.replicate 20 1, rfl⟩, 30000000, none⟩
    s.cache.lastSynced = some 0 ∧ s.cache.slots.get? 7 = some p ∧
      (∃ ds e fs rs, es = ds ++ e :: fs ∧ ((opened failing).run ds).Succeeds e 0 rs ∧
        s.cache = ⟨SlotMap.ofRegistrations rs, some 0⟩ ∧
        ∃ x ∈ rs, x.slot = 7 ∧ x.preferences? = some p) ∧
      later.outcome? 1 = some (.error .notFound) ∧ later.cache = s.cache ∧
      later.cache.slots.get? 7 = some p := by
  intro es s later p
  let t : Task := { id := 1, purpose := .validators, slot := 40, retries := 1 }
  have hno : ∀ (r : Relay) (u : Task), r.tasks = [u] → r.brings? u = none →
      ∀ e slot rs, ¬r.Succeeds e slot rs := by
    intro r u htasks hnone e slot rs hs
    obtain ⟨v, hv, -, -, -, hbrings⟩ := hs
    rw [htasks] at hv
    rw [List.mem_singleton.mp hv, hnone] at hbrings
    cases hbrings
  have hvain : (s.occur (.move t.id)).Unavailing t.id [.move 1, .move 1, .move 1] := by
    refine ⟨⟨_, List.mem_cons_self, rfl, rfl⟩, fun _ => hno _ _ rfl rfl _, ?_⟩
    refine ⟨⟨_, List.mem_cons_self, rfl, rfl⟩, fun _ => hno _ _ rfl rfl _, ?_⟩
    exact ⟨⟨_, List.mem_cons_self, rfl, rfl⟩, fun _ => hno _ _ rfl rfl _, trivial⟩
  have hsynced : s.cache.lastSynced = some 0 := rfl
  have hget : s.cache.slots.get? 7 = some p := by decide +kernel
  obtain ⟨hmade, hstays⟩ := cache_integrity failing es
  have hlater : later.cache = s.cache := hstays t List.mem_cons_self rfl _ hvain
  refine ⟨hsynced, hget, ?_, rfl, hlater, hlater.symm ▸ hget⟩
  rcases hmade with ⟨-, hempty⟩ | ⟨ds, e, fs, target, rs, hes, hs, -, hcache, hsaid, -⟩
  · rw [hempty] at hsynced
    cases hsynced
  · rw [hcache, Option.some.injEq] at hsynced
    rw [hsynced] at hs hcache
    exact ⟨ds, e, fs, rs, hes, hs, hcache, hsaid 7 p hget⟩

end Relay

end ProposerBook
