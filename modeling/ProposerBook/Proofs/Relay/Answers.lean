/-
What a book answers for a slot.

There are three ways to ask: a lookup, which may start a sync, a peek, which never does, and a
request over HTTP.  `Answers` says what all of them answer after a run, in terms of what has
happened: what the operator laid down last and did not take back, else what the slot map has,
else that nothing is known, and never another error.

Only laying down and taking back touch the overrides of a slot, and the slot map is read before
a sync can be started.  So whatever goes on in the background between the two halves of a
lookup, the sync that it has started itself included, the answer is the one that a peek would
have given before.
-/
import ProposerBook.Proofs.Relay.Inspection
import ProposerBook.Proofs.Relay.Tasks
import ProposerBook.Proofs.Table

namespace ProposerBook

/-- Whether an event lays down or takes back what counts for a slot. -/
def Event.concerns (slot : UInt64) : Event → Bool
  | .register s _ | .unregister s => s == slot
  | _ => false

namespace Relay

/-! ### The overrides of a slot -/

variable {r : Relay} {es : List Event} {slot : UInt64}

/-- A call has no access to the overrides. -/
theorem serve_overrides (r : Relay) (c : Call) :
    (r.serve c).overriding = r.overriding ∧ (r.serve c).overrides = r.overrides := by
  have hserved := served_serve r c
  generalize r.serve c = s at hserved ⊢
  cases hserved with
  | answers => exact ⟨rfl, rfl⟩
  | hands => exact ⟨rfl, rfl⟩
  | begins => exact ⟨rfl, rfl⟩
  | drops => exact ⟨rfl, rfl⟩

theorem moved_overrides (r : Relay) (before : List Task) (t : Task) (after : List Task) :
    (r.moved before t after).overriding = r.overriding ∧
      (r.moved before t after).overrides = r.overrides := by
  obtain ⟨cache, syncing, registry, remote, log, hmove⟩ := move_frame r t
  rw [moved_eq, hmove]
  exact ⟨rfl, rfl⟩

theorem occur_of_call (r : Relay) (c : Call) :
    (r.occur (.call c)).overriding = r.overriding ∧
      (r.occur (.call c)).overrides = r.overrides := by
  show (if r.isOpening then r else r.serve c).overriding = _ ∧
    (if r.isOpening then r else r.serve c).overrides = _
  split
  · exact ⟨rfl, rfl⟩
  · exact serve_overrides r c

theorem occur_of_move (r : Relay) (id : Nat) :
    (r.occur (.move id)).overriding = r.overriding ∧
      (r.occur (.move id)).overrides = r.overrides := by
  unfold occur
  dsimp only
  split
  · exact ⟨rfl, rfl⟩
  · exact moved_overrides r _ _ _

/-- Whether the book knows of an operator does not change. -/
theorem run_overriding (r : Relay) (es : List Event) : (r.run es).overriding = r.overriding := by
  induction es generalizing r with
  | nil => rfl
  | cons e es ih =>
    rw [run_cons, ih]
    cases e with
    | call c => exact (occur_of_call r c).1
    | move id => exact (occur_of_move r id).1
    | _ => rfl

/-- An event that does not concern a slot leaves its override alone. -/
theorem overrides_occur {e : Event} (h : e.concerns slot = false) :
    (r.occur e).overrides.get? slot = r.overrides.get? slot := by
  cases e with
  | call c => rw [(occur_of_call r c).2]
  | move id => rw [(occur_of_move r id).2]
  | register s p =>
    have hs : slot ≠ s := fun hs => beq_eq_false_iff_ne.mp h hs.symm
    exact Table.get?_insert_of_ne hs
  | unregister s =>
    have hs : slot ≠ s := fun hs => beq_eq_false_iff_ne.mp h hs.symm
    exact Table.get?_erase_of_ne hs
  | _ => rfl

theorem overrides_run (h : ∀ e ∈ es, e.concerns slot = false) :
    (r.run es).overrides.get? slot = r.overrides.get? slot := by
  induction es generalizing r with
  | nil => rfl
  | cons e es ih =>
    rw [run_cons, ih fun e' he' => h e' (List.mem_cons_of_mem _ he')]
    exact overrides_occur (h e List.mem_cons_self)

/-- `p` was laid down for the slot last, and has not been taken back. -/
inductive Stands (r : Relay) (es : List Event) (slot : UInt64) (p : Preferences) : Prop
  | registered (before after : List Event) (events : es = before ++ .register slot p :: after)
      (last : ∀ e ∈ after, e.concerns slot = false)
  /-- It was there at the beginning. -/
  | initial (there : r.overrides.get? slot = some p)
      (unconcerned : ∀ e ∈ es, e.concerns slot = false)

theorem stands_iff {p : Preferences} :
    Stands r es slot p ↔ (r.run es).overrides.get? slot = some p := by
  refine ⟨?_, ?_⟩
  · intro h
    cases h with
    | registered before after events last =>
      rw [events, run_append, run_cons, overrides_run last]
      exact Table.get?_insert_self
    | initial there unconcerned =>
      rw [overrides_run unconcerned]
      exact there
  · intro h
    by_cases hany : ∃ e ∈ es, e.concerns slot = true
    · obtain ⟨before, e, after, rfl, he, hlast⟩ := Table.exists_last hany
      have hlast' : ∀ e ∈ after, e.concerns slot = false :=
        fun e he => Bool.eq_false_iff.mpr (hlast e he)
      rw [run_append, run_cons, overrides_run hlast'] at h
      cases e with
      | register s q =>
        obtain rfl : s = slot := beq_iff_eq.mp he
        have hq : some q = some p := Table.get?_insert_self.symm.trans h
        exact .registered before after (by rw [Option.some.inj hq]) hlast'
      | unregister s =>
        obtain rfl : s = slot := beq_iff_eq.mp he
        have hnone : none = some p := Table.get?_erase_self.symm.trans h
        cases hnone
      | _ => cases he
    · have hnone : ∀ e ∈ es, e.concerns slot = false :=
        fun e he => Bool.eq_false_iff.mpr fun hc => hany ⟨e, he, hc⟩
      rw [overrides_run hnone] at h
      exact .initial h hnone

/-! ### The answer -/

/-- What is answered for a slot after a run. -/
inductive Answers (r : Relay) (es : List Event) (slot : UInt64) :
    Except RelayError Preferences → Prop
  /-- The operator's word counts, where the book knows of the operator. -/
  | overridden {p : Preferences} (attached : r.overriding = true) (stands : Stands r es slot p) :
    Answers r es slot (.ok p)
  | cached {p : Preferences} (free : r.overriding = true → ∀ q, ¬Stands r es slot q)
      (entry : (r.run es).cache.slots.get? slot = some p) : Answers r es slot (.ok p)
  | unknown (free : r.overriding = true → ∀ q, ¬Stands r es slot q)
      (empty : (r.run es).cache.slots.get? slot = none) : Answers r es slot (.error .notFound)

/-- The second half of a lookup, when the slot map has been read before. -/
def resolve (r : Relay) (slot : UInt64) (cached : Option Preferences) :
    Except RelayError Preferences :=
  match (r.override? slot).or cached with
  | some p => .ok p
  | none => .error .notFound

theorem answer_eq (r : Relay) (slot : UInt64) :
    r.answer slot = r.resolve slot (r.cache.slots.get? slot) := rfl

theorem resolve_of_override {p : Preferences} {cached : Option Preferences}
    (h : r.override? slot = some p) : r.resolve slot cached = .ok p := by
  unfold resolve
  rw [h]
  rfl

theorem resolve_of_cached {p : Preferences} (h : r.override? slot = none) :
    r.resolve slot (some p) = .ok p := by
  unfold resolve
  rw [h]
  rfl

theorem resolve_of_none (h : r.override? slot = none) :
    r.resolve slot none = .error .notFound := by
  unfold resolve
  rw [h]
  rfl

theorem resolve_congr {s : Relay} {cached : Option Preferences}
    (h : s.override? slot = r.override? slot) : s.resolve slot cached = r.resolve slot cached := by
  unfold resolve
  rw [h]

theorem answers_answer (r : Relay) (es : List Event) (slot : UInt64) :
    Answers r es slot ((r.run es).answer slot) := by
  have hattached := run_overriding r es
  have hfree : (r.run es).override? slot = none →
      r.overriding = true → ∀ q, ¬Stands r es slot q := by
    intro hnone hover q hq
    unfold override? at hnone
    rw [hattached, if_pos hover, stands_iff.mp hq] at hnone
    cases hnone
  rw [answer_eq]
  cases hoverride : (r.run es).override? slot with
  | some p =>
    rw [resolve_of_override hoverride]
    unfold override? at hoverride
    rw [hattached] at hoverride
    split at hoverride
    · rename_i hover
      exact .overridden hover (stands_iff.mpr hoverride)
    · cases hoverride
  | none =>
    cases hcached : (r.run es).cache.slots.get? slot with
    | some p =>
      rw [resolve_of_cached hoverride]
      exact .cached (hfree hoverride) hcached
    | none =>
      rw [resolve_of_none hoverride]
      exact .unknown (hfree hoverride) hcached

/-! ### The two halves of a lookup -/

/-- The first half of a lookup leaves the overrides alone. -/
theorem lookup_override (r : Relay) (slot : UInt64) :
    (r.lookup slot).2.override? slot = r.override? slot := by
  obtain ⟨hattached, hoverrides⟩ := serve_overrides r (.lookup slot)
  have hserve : r.serve (.lookup slot) = (r.lookup slot).2 := rfl
  rw [hserve] at hattached hoverrides
  unfold override?
  rw [hattached, hoverrides]

theorem override_run (h : ∀ e ∈ es, e.concerns slot = false) :
    (r.run es).override? slot = r.override? slot := by
  unfold override?
  rw [run_overriding, overrides_run h]

/-- Whatever happens in between, unless it concerns the slot, the second half of a lookup answers
as if it had come at once. -/
theorem resolve_run_lookup (h : ∀ e ∈ es, e.concerns slot = false) :
    ((r.lookup slot).2.run es).resolve slot (r.cache.slots.get? slot) = (r.lookup slot).1 :=
  resolve_congr ((override_run h).trans (lookup_override r slot))

/-! ### The main result -/

open Inspection (Asks Shows)

/-- The answer of a lookup and what is shown over HTTP come from the entry of the slot map and the
override alone. -/
theorem answer_congr {u : Relay} (cached : u.cache.slots.get? slot = r.cache.slots.get? slot)
    (override : u.override? slot = r.override? slot) : u.answer slot = r.answer slot := by
  rw [answer_eq, answer_eq, cached, resolve_congr override]

/--
**All ways to ask answer alike, whatever goes on in the background.**  At any time of any run a
lookup and a peek answer the same: what the operator laid down last, or else what the slot map
has, or else that nothing is known.  The answer of a lookup stays the same if anything at all
happens between its two halves that does not concern the slot, the sync that it has started
included.  A request over HTTP is shown this answer, as the fields of a JSON object or as a
missing page.  And a book that agrees on the slot, whatever else it holds, answers alike.
-/
theorem lookups_agree (r : Relay) (es : List Event) (slot : UInt64) :
    let s := (opened r).run es
    (s.lookup slot).1 = (s.peek slot).1 ∧
    Answers (opened r) es slot (s.lookup slot).1 ∧
    (∀ fs, (∀ e ∈ fs, e.concerns slot = false) →
      ((s.lookup slot).2.run fs).resolve slot (s.cache.slots.get? slot) = (s.lookup slot).1) ∧
    (∀ q, Asks q slot → Shows slot (s.lookup slot).1 (s.inspect q).1.response) ∧
    (∀ q : Inspection.Request, q.method = "GET" →
      q.target = "/validators/" ++ toString slot.toNat → Asks q slot) ∧
    ∀ u : Relay, u.cache.slots.get? slot = s.cache.slots.get? slot →
      u.override? slot = s.override? slot →
      (u.lookup slot).1 = (s.lookup slot).1 ∧ (u.peek slot).1 = (s.lookup slot).1 ∧
      ∀ q, Asks q slot → (u.inspect q).1.response = (s.inspect q).1.response := by
  intro s
  refine ⟨rfl, answers_answer (opened r) es slot, ?_, ?_, ?_, ?_⟩
  · intro fs h
    exact resolve_run_lookup h
  · intro q asks
    exact Inspection.shows_answer asks s
  · intro q method target
    exact Inspection.asks_toString method target
  · intro u cached override
    have hanswer : u.answer slot = s.answer slot := answer_congr cached override
    refine ⟨hanswer, hanswer, ?_⟩
    intro q asks
    show (Inspection.answer u q).1.response = (Inspection.answer s q).1.response
    rw [Inspection.response_of_asks asks, Inspection.response_of_asks asks, hanswer]

/-- A new book that knows of an operator, and whose other side has no registrations yet. -/
def listening : Relay :=
  { settings := { endpoint := { scheme := [], authority := none, path := .plain [] } }
    overriding := true }

/-- What a relay says of slot 40. -/
def lateRegistration : Registration :=
  { slot := 40
    entry := {
      message := {
        feeRecipient := "0x0000000000000000000000000000000000000000"
        gasLimit := 30000000
        timestamp := 0
        pubkey := "" }
      signature := "" }
    complianceList := none }

/-- The sync that a lookup has started ends before its second half, and brings what was looked
up.  The answer is still that nothing is known; only the next one knows better. -/
theorem lookups_agree_overtaken :
    let p : Preferences := ⟨"", ⟨List.replicate 20 1, rfl⟩, 1, none⟩
    let s := (opened listening).run
      [.move 0, .move 0, .register 40 p, .unregister 40, .register 41 p]
    let fs : List Event := [.answers { validators := [lateRegistration] }, .move 1, .move 1]
    let q : Inspection.Request := { target := "/validators/40" }
    (∀ e ∈ fs, e.concerns 40 = false) ∧ Asks q 40 ∧
      ((s.lookup 40).2.run fs).cache.slots.keys = [40] ∧
      ((s.lookup 40).2.run fs).resolve 40 (s.cache.slots.get? 40) = .error .notFound ∧
      Shows 40 (.error .notFound) (s.inspect q).1.response ∧ (s.lookup 41).1 = .ok p := by
  intro p s fs q
  have hfs : ∀ e ∈ fs, e.concerns 40 = false := by
    intro e he
    simp only [fs, List.mem_cons, List.not_mem_nil, or_false] at he
    rcases he with rfl | rfl | rfl <;> rfl
  obtain ⟨-, -, hresolve, hshows, hasks, -⟩ := lookups_agree listening
    [.move 0, .move 0, .register 40 p, .unregister 40, .register 41 p] 40
  have hlookup : (s.lookup 40).1 = .error .notFound := rfl
  have asks : Asks q 40 := hasks q rfl (by decide)
  refine ⟨hfs, asks, ?_, (hresolve fs hfs).trans hlookup, ?_, rfl⟩
  · rfl
  · rw [← hlookup]
    exact hshows q asks

end Relay

end ProposerBook
