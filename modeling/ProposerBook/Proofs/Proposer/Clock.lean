/-
The clock that an environment makes.

A clock divides by the length of a slot, and nothing in its type says that slots have one.  It is
the environment that sees to it: a length of zero is refused there, and so is a text that is no
number, while a variable that is unset or no text leaves the length to the default.  So whatever
clock an environment makes, it tells a slot at every time (`secondsPerSlot_ne_zero`).

What it tells is the quotient of numbers that need not fit into words any more: the end of the
last slot may lie beyond the last word.  `GoesOn` therefore says in plain numbers that a slot goes
on at a time, `goesOn_iff` that this is so for one slot, and that no slot is left out follows by
induction from what one second does (`slotNumber_succ_le`).
-/
import ProposerBook.Proofs.Outcome
import ProposerBook.Relay.Settings

namespace ProposerBook

/-! ### Which environments make a clock -/

namespace Environment

variable {env : Environment} {c : SlotClock} {name value : String} {n : UInt64}

theorem number_eq_ok_iff : number name value = .ok n ↔ Decimal.parseWord value = .ok n := by
  unfold number
  cases Decimal.parseWord value <;> simp

/-- The length of a slot is the default, or it is written down and not zero. -/
theorem secondsPerSlot_eq_ok_iff : env.secondsPerSlot = .ok n ↔
    (env.text? "SECONDS_PER_SLOT" = none ∧ n = defaultSecondsPerSlot) ∨
      ∃ v, env.text? "SECONDS_PER_SLOT" = some v ∧ Decimal.parseWord v = .ok n ∧ n ≠ 0 := by
  unfold secondsPerSlot
  cases env.text? "SECONDS_PER_SLOT" with
  | none => simp [eq_comm]
  | some v =>
    cases hv : Decimal.parseWord v with
    | error e => simp [hv]
    | ok m =>
      simp only [hv, reduceCtorEq, false_and, Option.some.injEq, exists_eq_left', Except.ok.injEq,
        false_or]
      by_cases hm : m = 0
      · rw [if_pos hm]
        simp only [reduceCtorEq, false_iff, not_and, not_not]
        exact fun hn => hn ▸ hm
      · rw [if_neg hm, Except.ok.injEq]
        exact ⟨fun hn => ⟨hn, hn ▸ hm⟩, And.left⟩

/-- A clock is made of a genesis and a length. -/
theorem slotClock?_eq_ok_some_iff : env.slotClock? = .ok (some c) ↔
    (∃ v, env.text? "GENESIS_TIME" = some v ∧ Decimal.parseWord v = .ok c.genesisTime) ∧
      env.secondsPerSlot = .ok c.secondsPerSlot := by
  unfold slotClock?
  cases env.text? "GENESIS_TIME" with
  | none => simp
  | some v =>
    dsimp only
    rw [bind_eq_ok_iff]
    constructor
    · rintro ⟨genesis, hgenesis, h⟩
      obtain ⟨seconds, hseconds, hend⟩ := bind_eq_ok_iff.mp h
      cases hend
      exact ⟨⟨v, rfl, number_eq_ok_iff.mp hgenesis⟩, hseconds⟩
    · rintro ⟨⟨v', hv', hread⟩, hseconds⟩
      cases hv'
      exact ⟨_, number_eq_ok_iff.mpr hread, bind_eq_ok_iff.mpr ⟨_, hseconds, rfl⟩⟩

/-- No clock has slots without a length. -/
theorem secondsPerSlot_ne_zero (made : env.slotClock? = .ok (some c)) : c.secondsPerSlot ≠ 0 := by
  obtain ⟨-, hseconds⟩ := slotClock?_eq_ok_some_iff.mp made
  rcases secondsPerSlot_eq_ok_iff.mp hseconds with ⟨-, hdefault⟩ | ⟨v, -, -, hn⟩
  · rw [hdefault]
    decide
  · exact hn

end Environment

/-! ### Slots and times -/

namespace SlotClock

variable {c : SlotClock} {s : Nat} {t u : UInt64}

/-- Slot `s` goes on at `t`: it has begun, and the next one has not. -/
def GoesOn (c : SlotClock) (s : Nat) (t : UInt64) : Prop :=
  c.genesisTime.toNat + s * c.secondsPerSlot.toNat ≤ t.toNat ∧
    t.toNat < c.genesisTime.toNat + (s + 1) * c.secondsPerSlot.toNat

/-- The number of the slot after so many seconds; before the genesis it is zero. -/
def slotNumber (c : SlotClock) (seconds : Nat) : Nat :=
  (seconds - c.genesisTime.toNat) / c.secondsPerSlot.toNat

theorem toNat_pos (long : c.secondsPerSlot ≠ 0) : 0 < c.secondsPerSlot.toNat :=
  Nat.pos_of_ne_zero fun h => long (UInt64.toNat_inj.mp h)

/-- The subtraction and the division yield the numbers that they would yield without a bound. -/
theorem exists_slot (long : c.secondsPerSlot ≠ 0) (t : UInt64) :
    ∃ w, c.slotOf t = .ok w ∧ w.toNat = c.slotNumber t.toNat := by
  refine ⟨_, if_neg long, ?_⟩
  rw [UInt64.toNat_div, slotNumber]
  congr 1
  by_cases before : t < c.genesisTime
  · rw [if_pos before]
    exact (Nat.sub_eq_zero_of_le (Nat.le_of_lt (UInt64.lt_iff_toNat_lt.mp before))).symm
  · rw [if_neg before, UInt64.toNat_sub_of_le _ _ (UInt64.not_lt.mp before)]

theorem slotNumber_of_le {n : Nat} (h : n ≤ c.genesisTime.toNat) : c.slotNumber n = 0 := by
  rw [slotNumber, Nat.sub_eq_zero_of_le h, Nat.zero_div]

/-- From the genesis on one slot goes on at a time. -/
theorem goesOn_iff (long : c.secondsPerSlot ≠ 0) (begun : c.genesisTime ≤ t) :
    c.GoesOn s t ↔ s = c.slotNumber t.toNat := by
  have hbegun : c.genesisTime.toNat ≤ t.toNat := UInt64.le_iff_toNat_le.mp begun
  rw [slotNumber, eq_comm, Nat.div_eq_iff (toNat_pos long), GoesOn]
  have hnext : (s + 1) * c.secondsPerSlot.toNat =
      s * c.secondsPerSlot.toNat + c.secondsPerSlot.toNat := Nat.succ_mul _ _
  have hpos := toNat_pos long
  omega

theorem slotNumber_le {n m : Nat} (h : n ≤ m) : c.slotNumber n ≤ c.slotNumber m :=
  Nat.div_le_div_right (by omega)

/-- A second later it is the same slot, or the next one. -/
theorem slotNumber_succ_le (long : c.secondsPerSlot ≠ 0) (n : Nat) :
    c.slotNumber (n + 1) ≤ c.slotNumber n + 1 := by
  have hpos := toNat_pos long
  calc c.slotNumber (n + 1)
      ≤ (n - c.genesisTime.toNat + c.secondsPerSlot.toNat) / c.secondsPerSlot.toNat :=
        Nat.div_le_div_right (by omega)
    _ = c.slotNumber n + 1 := Nat.add_div_right _ hpos

/-- Second by second, every slot on the way comes. -/
theorem exists_second (long : c.secondsPerSlot ≠ 0) {n m : Nat} (h : n ≤ m)
    (after : c.slotNumber n ≤ s) (upto : s ≤ c.slotNumber m) :
    ∃ k, n ≤ k ∧ k ≤ m ∧ c.slotNumber k = s := by
  induction h with
  | refl => exact ⟨n, Nat.le_refl n, Nat.le_refl n, Nat.le_antisymm after upto⟩
  | @step m hm ih =>
    by_cases hs : s ≤ c.slotNumber m
    · obtain ⟨k, hn, hk, hslot⟩ := ih hs
      exact ⟨k, hn, by omega, hslot⟩
    · have hstep := slotNumber_succ_le long m
      exact ⟨m + 1, Nat.le_succ_of_le hm, Nat.le_refl _, Nat.le_antisymm (by omega) upto⟩

/-- **The clock of an environment never fails and skips no slot.**  Before the genesis the slot is
zero, and from then on it is the one that goes on; a second later it is the same or the next, so
between two times every slot between theirs is told at some second. -/
theorem no_slot_skipped {env : Environment} (made : env.slotClock? = .ok (some c)) :
    c.secondsPerSlot ≠ 0 ∧ ∃ slot : UInt64 → UInt64,
      (∀ t, c.slotOf t = .ok (slot t)) ∧
      (∀ t, t < c.genesisTime → slot t = 0) ∧
      (∀ t, c.genesisTime ≤ t → ∀ s : Nat, c.GoesOn s t ↔ s = (slot t).toNat) ∧
      (∀ t u, t ≤ u → slot t ≤ slot u) ∧
      (∀ t : UInt64, t.toNat + 1 < Word.bound → (slot (t + 1)).toNat ≤ (slot t).toNat + 1) ∧
      ∀ t u s, t ≤ u → slot t ≤ s → s ≤ slot u → ∃ v, t ≤ v ∧ v ≤ u ∧ slot v = s := by
  have long := Environment.secondsPerSlot_ne_zero made
  choose slot hslot hnumber using exists_slot long
  refine ⟨long, slot, hslot, fun t before => ?_, fun t begun s => ?_, fun t u htu => ?_,
    fun t room => ?_, fun t u s htu after upto => ?_⟩
  · refine UInt64.toNat_inj.mp ?_
    rw [hnumber, slotNumber_of_le (Nat.le_of_lt (UInt64.lt_iff_toNat_lt.mp before))]
    rfl
  · rw [goesOn_iff long begun, hnumber]
  · rw [UInt64.le_iff_toNat_le, hnumber, hnumber]
    exact slotNumber_le (UInt64.le_iff_toNat_le.mp htu)
  · have hnext : (t + 1).toNat = t.toNat + 1 := by
      rw [UInt64.toNat_add]
      exact Nat.mod_eq_of_lt room
    rw [hnumber, hnumber, hnext]
    exact slotNumber_succ_le long t.toNat
  · rw [UInt64.le_iff_toNat_le] at htu after upto
    rw [hnumber] at after upto
    obtain ⟨k, hk, hku, hs⟩ := exists_second long htu after upto
    have hword : (UInt64.ofNat k).toNat = k :=
      UInt64.toNat_ofNat_of_lt' (Nat.lt_of_le_of_lt hku u.toNat_lt)
    refine ⟨UInt64.ofNat k, ?_, ?_, ?_⟩
    · rwa [UInt64.le_iff_toNat_le, hword]
    · rwa [UInt64.le_iff_toNat_le, hword]
    · rw [← UInt64.toNat_inj, hnumber, hword, hs]

/-- A genesis so late that slot 2 has no end among the words. -/
def lateGenesis : Environment :=
  [("GENESIS_TIME", Bytes.ofString "+18446744073709551600"),
    ("SECONDS_PER_SLOT", Bytes.ofString "007")]

theorem no_slot_skipped_late :
    let c : SlotClock := ⟨18446744073709551600, 7⟩
    let last : UInt64 := 18446744073709551615
    lateGenesis.slotClock? = .ok (some c) ∧ c.slotOf last = .ok 2 ∧
      Word.bound ≤ c.genesisTime.toNat + 3 * c.secondsPerSlot.toNat ∧
      (∀ s : Nat, c.GoesOn s last ↔ s = 2) ∧
      ∃ v, c.genesisTime ≤ v ∧ v ≤ last ∧ c.slotOf v = .ok 1 := by
  intro c last
  have made : lateGenesis.slotClock? = .ok (some c) := toOption_eq_some_iff.mp (by decide +kernel)
  obtain ⟨-, slot, hslot, -, hgoes, -, -, hsome⟩ := no_slot_skipped made
  have hfirst : slot c.genesisTime = 0 := Except.ok.inj ((hslot _).symm.trans (by decide))
  have hlast : slot last = 2 := Except.ok.inj ((hslot _).symm.trans (by decide))
  obtain ⟨v, hv, hvlast, hone⟩ := hsome c.genesisTime last 1 (by decide)
    (by rw [hfirst]; decide) (by rw [hlast]; decide)
  refine ⟨made, by decide, by decide, fun s => ?_, v, hv, hvlast, by rw [hslot, hone]⟩
  rw [hgoes last (by decide) s, hlast]
  rfl

end SlotClock

end ProposerBook
