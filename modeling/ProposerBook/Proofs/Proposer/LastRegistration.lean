/-
Which registration counts for a slot.

A registration counts if its fee recipient is an address, blanks at both ends aside, and what it
asks for is told by `Registration.Asks`.  For each slot the last of those that count is taken, and
the others might as well not be there.  So a malformed registration makes no difference, wherever
it stands; and if one list of registrations follows another, its map is laid over the other's.
-/
import ProposerBook.Proofs.AddressSet
import ProposerBook.Proofs.Proposer.SlotMap
import ProposerBook.Proofs.Text.Lowercase

namespace ProposerBook

namespace Registration

/-- The fees go to `a`. -/
def PaysTo (x : Registration) (a : Address) : Prop :=
  Address.parse (Text.trim x.entry.message.feeRecipient) = .ok a

/-- The fee recipient is no address. -/
def IsMalformed (x : Registration) : Prop := ∀ a, ¬x.PaysTo a

/-- What a registration asks for. -/
structure Asks (x : Registration) (p : Preferences) : Prop where
  feeRecipient : x.PaysTo p.feeRecipient
  gasLimit : p.gasLimit = x.entry.message.gasLimit
  pubkey : p.pubkey = Text.lower x.entry.message.pubkey
  /-- The empty name is none. -/
  complianceList : ∀ name,
    p.complianceList = some name ↔ x.complianceList = some name ∧ name ≠ ""

variable {x : Registration} {p : Preferences}

theorem feeRecipient?_eq_some_iff {a : Address} : x.feeRecipient? = some a ↔ x.PaysTo a := by
  unfold feeRecipient? PaysTo
  cases Address.parse (Text.trim x.entry.message.feeRecipient) with
  | ok b =>
    exact ⟨fun h => congrArg Except.ok (Option.some.inj h),
      fun h => congrArg some (Except.ok.inj h)⟩
  | error e => exact ⟨nofun, nofun⟩

theorem preferences?_eq_some_iff : x.preferences? = some p ↔ x.Asks p := by
  have hname : ∀ name, x.complianceList.filter (· != "") = some name ↔
      x.complianceList = some name ∧ name ≠ "" := by
    intro name
    rw [Option.filter_eq_some_iff, bne_iff_ne]
  unfold preferences?
  rw [Option.map_eq_some_iff]
  refine ⟨?_, ?_⟩
  · rintro ⟨a, ha, rfl⟩
    exact ⟨feeRecipient?_eq_some_iff.mp ha, rfl, rfl, hname⟩
  · intro h
    refine ⟨p.feeRecipient, feeRecipient?_eq_some_iff.mpr h.feeRecipient, ?_⟩
    have hlist : p.complianceList = x.complianceList.filter (· != "") :=
      Option.ext fun name => (h.complianceList name).trans (hname name).symm
    cases p
    rw [Preferences.mk.injEq]
    exact ⟨h.pubkey.symm, rfl, h.gasLimit.symm, hlist.symm⟩

theorem exists_asks {a : Address} (h : x.PaysTo a) : ∃ p, x.Asks p := by
  have hp : x.preferences? = some _ := congrArg (Option.map _) (feeRecipient?_eq_some_iff.mpr h)
  exact ⟨_, preferences?_eq_some_iff.mp hp⟩

theorem isMalformed_iff : x.IsMalformed ↔ x.preferences? = none := by
  unfold IsMalformed preferences?
  rw [Option.map_eq_none_iff, Option.eq_none_iff_forall_ne_some]
  exact forall_congr' fun a => not_congr feeRecipient?_eq_some_iff.symm

end Registration

namespace SlotMap

variable {rs ss : List Registration} {slot : UInt64} {p : Preferences}

/-! ### The last one that counts -/

theorem get?_eq_some_iff_asks : (ofRegistrations rs).get? slot = some p ↔
    ∃ before x after, rs = before ++ x :: after ∧ x.slot = slot ∧ x.Asks p ∧
      ∀ y ∈ after, y.slot = slot → y.IsMalformed := by
  simp only [get?_ofRegistrations_eq_some_iff, Registration.preferences?_eq_some_iff,
    Registration.isMalformed_iff]

theorem exists_get?_iff : (∃ p, (ofRegistrations rs).get? slot = some p) ↔
    ∃ x ∈ rs, x.slot = slot ∧ ∃ a, x.PaysTo a := by
  refine ⟨?_, ?_⟩
  · rintro ⟨p, hp⟩
    obtain ⟨before, x, after, rfl, hslot, hasks, -⟩ := get?_eq_some_iff_asks.mp hp
    exact ⟨x, List.mem_append_right _ List.mem_cons_self, hslot, _, hasks.feeRecipient⟩
  · rintro ⟨x, hx, hslot, a, ha⟩
    -- If the map said nothing of the slot, `x` would ask for nothing.
    refine Option.isSome_iff_exists.mp (Option.ne_none_iff_isSome.mp ?_)
    intro hnone
    obtain ⟨before, y, after, rfl, ⟨rfl, b, hb⟩, hafter⟩ := Table.exists_last
      (p := fun y : Registration => y.slot = slot ∧ ∃ b, y.PaysTo b) ⟨x, hx, hslot, a, ha⟩
    obtain ⟨q, hq⟩ := Registration.exists_asks hb
    have hget : (ofRegistrations (before ++ y :: after)).get? y.slot = some q :=
      get?_eq_some_iff_asks.mpr ⟨before, y, after, rfl, rfl, hq,
        fun z hz hslot b hb => hafter z hz ⟨hslot, b, hb⟩⟩
    rw [hnone] at hget
    cases hget

/-! ### Malformed registrations -/

theorem ofRegistrations_of_malformed {before after : List Registration} {x : Registration}
    (h : x.IsMalformed) :
    ofRegistrations (before ++ x :: after) = ofRegistrations (before ++ after) := by
  have hx : entry? x = none := by
    unfold entry?
    rw [Registration.isMalformed_iff.mp h]
    rfl
  rw [ofRegistrations_eq, ofRegistrations_eq, List.filterMap_append, List.filterMap_append,
    List.filterMap_cons_none hx]

/-! ### One list after another -/

theorem ofRegistrations_append :
    ofRegistrations (rs ++ ss) = (ofRegistrations rs).override (ofRegistrations ss) := by
  rw [ofRegistrations_eq, List.filterMap_append]
  exact Table.ofList_append

/-! ### The main result -/

/--
**For each slot the last registration counts that says where the fees go.**  A map has something
under a slot just if there is such a registration for it, and it is what the last of them asks for.
Malformed registrations make no difference.  The map of two lists, one after the other, is that of
the second laid over that of the first.  And the keys of proposers are in lower case, so that
lower-casing leaves them alone.
-/
theorem last_sound_registration_counts (rs : List Registration) (slot : UInt64) :
    let m := ofRegistrations rs
    ((∃ p, m.get? slot = some p) ↔ ∃ x ∈ rs, x.slot = slot ∧ ∃ a, x.PaysTo a) ∧
    (∀ p, m.get? slot = some p ↔ ∃ before x after, rs = before ++ x :: after ∧ x.slot = slot ∧
      x.Asks p ∧ ∀ y ∈ after, y.slot = slot → y.IsMalformed) ∧
    (∀ before x after, rs = before ++ x :: after → x.IsMalformed →
      m = ofRegistrations (before ++ after)) ∧
    (∀ ss, ofRegistrations (rs ++ ss) = m.override (ofRegistrations ss) ∧
      (ofRegistrations (rs ++ ss)).get? slot
        = ((ofRegistrations ss).get? slot).or (m.get? slot)) ∧
    ∀ p, m.get? slot = some p → Text.lower p.pubkey = p.pubkey := by
  intro m
  refine ⟨exists_get?_iff, fun p => get?_eq_some_iff_asks, ?_, ?_, ?_⟩
  · rintro before x after rfl malformed
    exact ofRegistrations_of_malformed malformed
  · intro ss
    have happend : ofRegistrations (rs ++ ss) = m.override (ofRegistrations ss) :=
      ofRegistrations_append
    refine ⟨happend, ?_⟩
    rw [happend]
    exact Table.get?_override
  · intro p hp
    obtain ⟨_, x, _, -, -, hasks, -⟩ := get?_eq_some_iff_asks.mp hp
    rw [hasks.pubkey]
    exact Text.lower_lower _

/-- A registration for slot 7. -/
def forSeven (feeRecipient pubkey : String) : Registration :=
  { slot := 7
    entry := {
      message := { feeRecipient, gasLimit := 30000000, timestamp := 0, pubkey }
      signature := "" }
    complianceList := some "" }

/-- The second one has blanks around its address, and a key that ends in a capital sigma. -/
def threeForSeven : List Registration :=
  [forSeven "0x0101010101010101010101010101010101010101" "0xAA",
    forSeven " 0x0202020202020202020202020202020202020202\t" "ΟΔΟΣ", forSeven "0x03" "0xCC"]

/-- Of three registrations for a slot the second one counts, for the third is malformed. -/
theorem last_sound_registration_counts_malformed :
    let p : Preferences := ⟨"οδος", .repeated 2, 30000000, none⟩
    (ofRegistrations threeForSeven).get? 7 = some p ∧
      ofRegistrations threeForSeven = ofRegistrations (threeForSeven.take 2) ∧
      (ofRegistrations (threeForSeven ++ threeForSeven.take 1)).get? 7
        = some ⟨"0xaa", .repeated 1, 30000000, none⟩ ∧
      Text.lower p.pubkey = p.pubkey := by
  intro p
  let first := forSeven "0x0101010101010101010101010101010101010101" "0xAA"
  let second := forSeven " 0x0202020202020202020202020202020202020202\t" "ΟΔΟΣ"
  let third := forSeven "0x03" "0xCC"
  have hfirst : (ofRegistrations [first]).get? 7 = some ⟨"0xaa", .repeated 1, 30000000, none⟩ := by
    decide +kernel
  have hsecond : second.Asks p := by
    rw [← Registration.preferences?_eq_some_iff]
    decide +kernel
  have hthird : third.IsMalformed := by
    rw [Registration.isMalformed_iff]
    decide +kernel
  obtain ⟨-, hget, hmalformed, happend, hlower⟩ := last_sound_registration_counts threeForSeven 7
  have hp : (ofRegistrations threeForSeven).get? 7 = some p := by
    refine (hget p).mpr ⟨[first], second, [third], rfl, rfl, hsecond, ?_⟩
    intro y hy _
    rw [List.mem_singleton.mp hy]
    exact hthird
  refine ⟨hp, hmalformed [first, second] third [] rfl hthird, ?_, hlower p hp⟩
  have hover := (happend [first]).2
  rw [hfirst] at hover
  exact hover

end SlotMap

end ProposerBook
