/-
An ascending list is its members.

Two ascending lists with the same members are equal, and no two members of one have
the same key.  Everything that says "whatever the order of arrival" about sets and
tables comes down to these two, and to what `place` does to the members: the new one
is in, the old one with its key is out, and all others stay.
-/
import ProposerBook.Sorted

namespace ProposerBook

namespace Sorted

variable {α κ : Type} [Ord κ] {key : α → κ} {xs ys : List α}

section

variable [Std.TransOrd κ]

/-- No key is below itself. -/
theorem compare_self_ne_lt (k : κ) : compare k k ≠ .lt := by
  rw [Std.ReflOrd.compare_self]
  exact Ordering.noConfusion

theorem nodup_of_ascending (h : Ascending key xs) : xs.Nodup := by
  refine List.Pairwise.imp ?_ h
  intro a b hlt hab
  rw [hab] at hlt
  exact compare_self_ne_lt _ hlt

/-- Two members with one key are the same member. -/
theorem eq_of_key_eq (h : Ascending key xs) {a b : α} (ha : a ∈ xs) (hb : b ∈ xs)
    (hk : key a = key b) : a = b := by
  induction xs with
  | nil => cases ha
  | cons y ys ih =>
    have hy : ∀ z ∈ ys, compare (key y) (key z) = .lt :=
      fun _ hz => List.rel_of_pairwise_cons h hz
    rcases List.mem_cons.mp ha with hay | hays
    · rcases List.mem_cons.mp hb with hby | hbys
      · rw [hay, hby]
      · exact absurd (hk ▸ hay ▸ hy b hbys) (compare_self_ne_lt _)
    · rcases List.mem_cons.mp hb with hby | hbys
      · exact absurd (hk ▸ hby ▸ hy a hays) (compare_self_ne_lt _)
      · exact ih h.of_cons hays hbys

/-- **Ascending lists with the same members are equal.** -/
theorem eq_of_mem_iff (hx : Ascending key xs) (hy : Ascending key ys)
    (h : ∀ a, a ∈ xs ↔ a ∈ ys) : xs = ys := by
  have hperm : xs.Perm ys :=
    (List.perm_ext_iff_of_nodup (nodup_of_ascending hx) (nodup_of_ascending hy)).mpr h
  refine List.Perm.eq_of_pairwise ?_ hx hy hperm
  intro a b _ _ hab hba
  exact absurd (Std.TransCmp.lt_trans hab hba) (compare_self_ne_lt _)

end

/-! ### What placing does to the members -/

variable [Std.TransOrd κ] [Std.LawfulEqOrd κ]

/-- The members after placing: the new one, and the old ones with another key. -/
theorem mem_place_iff (h : Ascending key xs) {x y : α} :
    y ∈ place key x xs ↔ y = x ∨ (y ∈ xs ∧ key y ≠ key x) := by
  induction xs with
  | nil => simp [place]
  | cons z zs ih =>
    have hz : ∀ w ∈ zs, compare (key z) (key w) = .lt :=
      fun _ hw => List.rel_of_pairwise_cons h hw
    rw [place]
    cases hc : compare (key x) (key z) with
    | lt =>
      -- All keys of the list are above the new one, so none of its members goes.
      have hne : ∀ w ∈ z :: zs, key w ≠ key x := by
        intro w hw hk
        have hlt : compare (key x) (key w) = .lt := by
          rcases List.mem_cons.mp hw with rfl | hw
          · exact hc
          · exact Std.TransCmp.lt_trans hc (hz w hw)
        exact compare_self_ne_lt _ (hk ▸ hlt)
      refine ⟨?_, ?_⟩
      · intro hy
        rcases List.mem_cons.mp hy with rfl | hy
        · exact Or.inl rfl
        · exact Or.inr ⟨hy, hne y hy⟩
      · intro hx
        rcases hx with rfl | ⟨hy, -⟩
        · exact List.mem_cons_self
        · exact List.mem_cons_of_mem _ hy
    | eq =>
      have hxz : key x = key z := Std.LawfulEqCmp.eq_of_compare hc
      refine ⟨?_, ?_⟩
      · intro hy
        rcases List.mem_cons.mp hy with rfl | hy
        · exact Or.inl rfl
        · refine Or.inr ⟨List.mem_cons_of_mem _ hy, fun hk => ?_⟩
          exact compare_self_ne_lt _ ((hk.trans hxz) ▸ hz y hy)
      · intro hx
        rcases hx with rfl | ⟨hy, hk⟩
        · exact List.mem_cons_self
        · rcases List.mem_cons.mp hy with rfl | hy
          · exact absurd hxz.symm hk
          · exact List.mem_cons_of_mem _ hy
    | gt =>
      have hzx : key z ≠ key x := by
        intro hk
        rw [hk, Std.ReflOrd.compare_self] at hc
        cases hc
      refine ⟨?_, ?_⟩
      · intro hy
        rcases List.mem_cons.mp hy with rfl | hy
        · exact Or.inr ⟨List.mem_cons_self, hzx⟩
        · rcases (ih h.of_cons).mp hy with rfl | ⟨hy, hk⟩
          · exact Or.inl rfl
          · exact Or.inr ⟨List.mem_cons_of_mem _ hy, hk⟩
      · intro hx
        rcases hx with rfl | ⟨hy, hk⟩
        · exact List.mem_cons_of_mem _ ((ih h.of_cons).mpr (Or.inl rfl))
        · rcases List.mem_cons.mp hy with rfl | hy
          · exact List.mem_cons_self
          · exact List.mem_cons_of_mem _ ((ih h.of_cons).mpr (Or.inr ⟨hy, hk⟩))

end Sorted

end ProposerBook
