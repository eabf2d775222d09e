/-
What is in a set of addresses.

A set is known by its members: the order in which they arrived, and how often each of
them did, leaves no trace.  So a set is the same value again when it is made from its
members in any order.  Its size tells whether an address came twice.
-/
import Mathlib.Data.List.Dedup
import ProposerBook.Proofs.Sorted
import ProposerBook.Screening.AddressSet

namespace ProposerBook

/-- The address that is one byte twenty times. -/
def Address.repeated (b : UInt8) : Address := ⟨List.replicate 20 b, List.length_replicate⟩

namespace AddressSet

instance : Membership Address AddressSet := ⟨fun s a => a ∈ s.members⟩

theorem mem_def {s : AddressSet} {a : Address} : a ∈ s ↔ a ∈ s.members := Iff.rfl

theorem contains_iff {s : AddressSet} {a : Address} : s.contains a = true ↔ a ∈ s := by
  rw [contains, List.contains_iff_mem, mem_def]

theorem not_mem_empty (a : Address) : ¬a ∈ (empty : AddressSet) := List.not_mem_nil

/-- **Sets with the same members are equal.** -/
theorem ext {s t : AddressSet} (h : ∀ a, a ∈ s ↔ a ∈ t) : s = t := by
  cases s with
  | mk xs hx =>
    cases t with
    | mk ys hy =>
      have : xs = ys := Sorted.eq_of_mem_iff hx hy h
      subst this
      rfl

/-! ### How sets are made -/

theorem mem_insert {s : AddressSet} {a b : Address} : b ∈ s.insert a ↔ b = a ∨ b ∈ s := by
  rw [mem_def, insert, Sorted.mem_place_iff s.ascending]
  refine ⟨?_, ?_⟩
  · intro h
    rcases h with rfl | ⟨hb, -⟩
    · exact Or.inl rfl
    · exact Or.inr hb
  · intro h
    rcases h with rfl | hb
    · exact Or.inl rfl
    · by_cases hba : b = a
      · exact Or.inl hba
      · exact Or.inr ⟨hb, hba⟩

theorem mem_insertAll {as : List Address} {s : AddressSet} {b : Address} :
    b ∈ s.insertAll as ↔ b ∈ as ∨ b ∈ s := by
  induction as generalizing s with
  | nil => simp [insertAll]
  | cons a as ih =>
    show b ∈ (s.insert a).insertAll as ↔ _
    rw [ih, mem_insert, List.mem_cons]
    refine ⟨?_, ?_⟩
    · intro hx
      rcases hx with h | rfl | h
      · exact Or.inl (Or.inr h)
      · exact Or.inl (Or.inl rfl)
      · exact Or.inr h
    · intro hx
      rcases hx with (rfl | h) | h
      · exact Or.inr (Or.inl rfl)
      · exact Or.inl h
      · exact Or.inr (Or.inr h)

theorem mem_ofList {as : List Address} {b : Address} : b ∈ ofList as ↔ b ∈ as := by
  rw [ofList, mem_insertAll]
  exact or_iff_left (not_mem_empty b)

/-- A set made from its own members, in any order, is the set again. -/
theorem ofList_of_perm {as : List Address} {s : AddressSet} (h : as.Perm s.members) :
    ofList as = s := by
  refine ext fun a => ?_
  rw [mem_ofList, h.mem_iff, mem_def]

/-! ### How large sets are -/

theorem perm_dedup (as : List Address) : (ofList as).members.Perm as.dedup := by
  have hnodup := Sorted.nodup_of_ascending (ofList as).ascending
  refine (List.perm_ext_iff_of_nodup hnodup as.nodup_dedup).mpr ?_
  intro a
  rw [← mem_def, mem_ofList, List.mem_dedup]

theorem size_ofList_le (as : List Address) : (ofList as).size ≤ as.length := by
  have hsize : (ofList as).size = as.dedup.length := (perm_dedup as).length_eq
  rw [hsize]
  exact as.dedup_sublist.length_le

/-- **A set is as large as the list it is made from just if no address comes twice.** -/
theorem size_ofList_eq_iff {as : List Address} : (ofList as).size = as.length ↔ as.Nodup := by
  have hsize : (ofList as).size = as.dedup.length := (perm_dedup as).length_eq
  rw [hsize, ← List.dedup_eq_self]
  refine ⟨?_, ?_⟩
  · exact as.dedup_sublist.eq_of_length
  · intro h
    rw [h]

end AddressSet

end ProposerBook
