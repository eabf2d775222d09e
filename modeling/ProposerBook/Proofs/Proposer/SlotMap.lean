/-
What a slot map says.

Of the registrations for a slot that say where the fees go, the last one counts.  So
whatever a map says comes from the registrations that it was made from, and of a slot that
none of them is for it says nothing.
-/
import ProposerBook.Proofs.Table
import ProposerBook.Proposer.SlotMap

namespace ProposerBook

namespace SlotMap

variable {rs : List Registration} {slot : UInt64} {p : Preferences}

/-- What a registration puts into a map. -/
def entry? (r : Registration) : Option (UInt64 × Preferences) := r.preferences?.map (r.slot, ·)

theorem ofRegistrations_eq (rs : List Registration) :
    ofRegistrations rs = Table.ofList (rs.filterMap entry?) := rfl

/-- Registrations that leave the slot alone put nothing under it. -/
theorem key_ne_of_mem (h : ∀ x ∈ rs, x.slot = slot → x.preferences? = none) :
    ∀ e ∈ rs.filterMap entry?, e.1 ≠ slot := by
  intro e he hslot
  obtain ⟨x, hx, hmap⟩ := List.mem_filterMap.mp he
  obtain ⟨q, hq, rfl⟩ := Option.map_eq_some_iff.mp hmap
  have hnone := h x hx hslot
  rw [hq] at hnone
  cases hnone

theorem get?_ofRegistrations_of_last {before after : List Registration} {x : Registration}
    (asked : x.preferences? = some p)
    (last : ∀ y ∈ after, y.slot = x.slot → y.preferences? = none) :
    (ofRegistrations (before ++ x :: after)).get? x.slot = some p := by
  have hx : entry? x = some (x.slot, p) := by
    unfold entry?
    rw [asked]
    rfl
  rw [ofRegistrations_eq, List.filterMap_append, List.filterMap_cons_some hx]
  exact Table.get?_insertAll_of_last (key_ne_of_mem last)

theorem get?_ofRegistrations_eq_none (h : ∀ x ∈ rs, x.slot = slot → x.preferences? = none) :
    (ofRegistrations rs).get? slot = none := by
  rw [ofRegistrations_eq]
  exact (Table.get?_insertAll_of_ne (key_ne_of_mem h)).trans Table.get?_empty

/-- **The last registration that can be used counts.** -/
theorem get?_ofRegistrations_eq_some_iff : (ofRegistrations rs).get? slot = some p ↔
    ∃ before x after, rs = before ++ x :: after ∧ x.slot = slot ∧ x.preferences? = some p ∧
      ∀ y ∈ after, y.slot = slot → y.preferences? = none := by
  refine ⟨?_, ?_⟩
  · intro h
    by_cases hsome : ∃ x ∈ rs, x.slot = slot ∧ ∃ q, x.preferences? = some q
    · obtain ⟨before, x, after, rfl, ⟨rfl, q, hq⟩, hafter⟩ := Table.exists_last hsome
      have hlast : ∀ y ∈ after, y.slot = x.slot → y.preferences? = none := by
        intro y hy hslot
        rw [Option.eq_none_iff_forall_ne_some]
        intro q' hq'
        exact hafter y hy ⟨hslot, q', hq'⟩
      rw [get?_ofRegistrations_of_last hq hlast] at h
      exact ⟨before, x, after, rfl, rfl, hq.trans h, hlast⟩
    · have hnone : ∀ x ∈ rs, x.slot = slot → x.preferences? = none := by
        intro x hx hslot
        rw [Option.eq_none_iff_forall_ne_some]
        intro q hq
        exact hsome ⟨x, hx, hslot, q, hq⟩
      rw [get?_ofRegistrations_eq_none hnone] at h
      cases h
  · intro hc
    obtain ⟨before, x, after, rfl, rfl, asked, last⟩ := hc
    exact get?_ofRegistrations_of_last asked last

/-! ### The lists that are named -/

/-- Some proposer names the list, and the name is not empty. -/
def Names (m : SlotMap) (name : String) : Prop :=
  name ≠ "" ∧ ∃ slot p, m.get? slot = some p ∧ p.complianceList = some name

theorem mem_listNames {m : SlotMap} {name : String} : name ∈ listNames m ↔
    ∃ slot p, m.get? slot = some p ∧ p.complianceList = some name := by
  unfold listNames
  rw [Table.mem_keys_ofList]
  refine ⟨?_, ?_⟩
  · rintro ⟨e, he, rfl⟩
    obtain ⟨n, hn, rfl⟩ := List.mem_map.mp he
    obtain ⟨p, hp, hlist⟩ := List.mem_filterMap.mp hn
    obtain ⟨⟨slot, q⟩, hentry, rfl⟩ := List.mem_map.mp hp
    exact ⟨slot, q, Table.get?_eq_some_iff.mpr hentry, hlist⟩
  · rintro ⟨slot, p, hget, hlist⟩
    refine ⟨(name, ()), List.mem_map.mpr ⟨name, ?_, rfl⟩, rfl⟩
    refine List.mem_filterMap.mpr ⟨p, ?_, hlist⟩
    exact List.mem_map.mpr ⟨(slot, p), Table.get?_eq_some_iff.mp hget, rfl⟩

theorem nodup_listNames (m : SlotMap) : (listNames m).Nodup := Table.nodup_keys _

/-- The empty name is none, so no list of registrations names it. -/
theorem ne_empty_of_mem_listNames {name : String} (h : name ∈ listNames (ofRegistrations rs)) :
    name ≠ "" := by
  obtain ⟨slot, p, hget, hlist⟩ := mem_listNames.mp h
  obtain ⟨before, x, after, -, -, hp, -⟩ := get?_ofRegistrations_eq_some_iff.mp hget
  unfold Registration.preferences? at hp
  obtain ⟨a, -, rfl⟩ := Option.map_eq_some_iff.mp hp
  have hkept := (Option.filter_eq_some_iff.mp hlist).2
  exact bne_iff_ne.mp hkept

end SlotMap

end ProposerBook
