/-
What a table holds.

A table is known by what it answers: two tables that answer alike for every key are
equal.  Of entries inserted one after the other the last one with a key counts, and
where there is none the table answers as before.  From these two, a table is the same
again when it is made from its own entries in any order.

If every entry has a weight, a table weighs what was put into it less what was replaced.  So it
weighs as much as the entries that it was made from just if these have distinct keys.
-/
import Mathlib.Algebra.GroupWithZero.Nat
import Mathlib.Data.List.Nodup
import ProposerBook.Proofs.Sorted
import ProposerBook.Table

namespace ProposerBook

namespace Table

/-- Of the members with some property, one is the last. -/
theorem exists_last {β : Type} {p : β → Prop} {es : List β} (h : ∃ e ∈ es, p e) :
    ∃ fs e gs, es = fs ++ e :: gs ∧ p e ∧ ∀ g ∈ gs, ¬p g := by
  induction es with
  | nil =>
    obtain ⟨e, he, -⟩ := h
    cases he
  | cons e es ih =>
    by_cases hes : ∃ e' ∈ es, p e'
    · obtain ⟨fs, e', gs, rfl, hp, hgs⟩ := ih hes
      exact ⟨e :: fs, e', gs, rfl, hp, hgs⟩
    · obtain ⟨e', he', hp⟩ := h
      have hee : e' = e := by
        rcases List.mem_cons.mp he' with h | h
        · exact h
        · exact absurd ⟨e', h, hp⟩ hes
      subst hee
      exact ⟨[], e', es, rfl, hp, fun g hg hpg => hes ⟨g, hg, hpg⟩⟩

variable {κ α : Type} [Ord κ] {s t : Table κ α} {k l : κ} {x : α}

theorem contains_iff : t.contains k = true ↔ ∃ x, t.get? k = some x := by
  rw [contains, Option.isSome_iff_exists]

theorem get?_empty : (empty : Table κ α).get? k = none := rfl

theorem ascending_keys (t : Table κ α) : Sorted.Ascending (fun k : κ => k) t.keys :=
  List.pairwise_map.mpr t.ascending

/-! ### Looking up -/

variable [Std.TransOrd κ]

theorem nodup_keys (t : Table κ α) : t.keys.Nodup := Sorted.nodup_of_ascending t.ascending_keys

/-- Tables with the same keys have them in the same order. -/
theorem keys_eq_of_mem_iff {β : Type} {u : Table κ β} (h : ∀ k, k ∈ u.keys ↔ k ∈ t.keys) :
    u.keys = t.keys :=
  Sorted.eq_of_mem_iff u.ascending_keys t.ascending_keys h

variable [Std.LawfulEqOrd κ]

theorem get?_eq_some_iff : t.get? k = some x ↔ (k, x) ∈ t.entries := by
  have hbeq : ∀ l : κ, (compare k l == .eq) = true ↔ k = l := by
    intro l
    rw [beq_iff_eq, Std.LawfulEqOrd.compare_eq_iff_eq]
  have hfound : ∀ e, t.entries.find? (fun e => compare k e.1 == .eq) = some e → k = e.1 := by
    intro e he
    have hb : (compare k e.1 == .eq) = true :=
      List.find?_some (p := fun e : κ × α => compare k e.1 == .eq) he
    exact (hbeq _).mp hb
  rw [get?, Option.map_eq_some_iff]
  refine ⟨?_, ?_⟩
  · intro hx
    obtain ⟨e, he, rfl⟩ := hx
    rw [hfound e he]
    exact List.mem_of_find?_eq_some he
  · intro h
    -- The search stops somewhere, and nothing else has this key.
    have hsome : (t.entries.find? fun e => compare k e.1 == .eq).isSome := by
      rw [List.find?_isSome]
      exact ⟨(k, x), h, (hbeq k).mpr rfl⟩
    obtain ⟨e, he⟩ := Option.isSome_iff_exists.mp hsome
    have hex : e = (k, x) :=
      Sorted.eq_of_key_eq t.ascending (List.mem_of_find?_eq_some he) h (hfound e he).symm
    exact ⟨e, he, by rw [hex]⟩

/-- **Tables that answer alike are equal.** -/
theorem ext (h : ∀ k, s.get? k = t.get? k) : s = t := by
  have hmem : ∀ e, e ∈ s.entries ↔ e ∈ t.entries := by
    intro e
    rw [← get?_eq_some_iff (k := e.1) (x := e.2), ← get?_eq_some_iff (k := e.1) (x := e.2), h e.1]
  cases s with
  | mk xs hx =>
    cases t with
    | mk ys hy =>
      have : xs = ys := Sorted.eq_of_mem_iff hx hy hmem
      subst this
      rfl

/-! ### Erasing -/

omit [Std.TransOrd κ] in
theorem mem_erase_iff {e : κ × α} : e ∈ (t.erase k).entries ↔ e ∈ t.entries ∧ k ≠ e.1 := by
  unfold erase
  rw [List.mem_filter, bne_iff_ne, ne_eq, Std.LawfulEqOrd.compare_eq_iff_eq]

theorem get?_erase_self : (t.erase k).get? k = none := by
  refine Option.eq_none_iff_forall_not_mem.mpr ?_
  intro x hx
  exact (mem_erase_iff.mp (get?_eq_some_iff.mp hx)).2 rfl

theorem get?_erase_of_ne (h : l ≠ k) : (t.erase k).get? l = t.get? l := by
  refine Option.ext fun x => ?_
  rw [get?_eq_some_iff, get?_eq_some_iff, mem_erase_iff]
  exact and_iff_left h.symm

/-! ### Inserting -/

theorem get?_insert_self : (t.insert k x).get? k = some x := by
  rw [get?_eq_some_iff, insert, Sorted.mem_place_iff t.ascending]
  exact Or.inl rfl

theorem get?_insert_of_ne (h : l ≠ k) : (t.insert k x).get? l = t.get? l := by
  have hiff : ∀ y, (t.insert k x).get? l = some y ↔ t.get? l = some y := by
    intro y
    rw [get?_eq_some_iff, get?_eq_some_iff, insert, Sorted.mem_place_iff t.ascending]
    refine ⟨?_, ?_⟩
    · intro hx
      rcases hx with he | ⟨hy, -⟩
      · exact absurd (congrArg Prod.fst he) h
      · exact hy
    · intro hy
      exact Or.inr ⟨hy, h⟩
  exact Option.ext hiff

/-- Where no entry has the key, the table answers as before. -/
theorem get?_insertAll_of_ne {es : List (κ × α)} (h : ∀ e ∈ es, e.1 ≠ k) :
    (t.insertAll es).get? k = t.get? k := by
  induction es generalizing t with
  | nil => rfl
  | cons e es ih =>
    show ((t.insert e.1 e.2).insertAll es).get? k = _
    rw [ih fun e' he' => h e' (List.mem_cons_of_mem _ he')]
    exact get?_insert_of_ne (h e List.mem_cons_self).symm

theorem insertAll_append {es fs : List (κ × α)} :
    t.insertAll (es ++ fs) = (t.insertAll es).insertAll fs := List.foldl_append

/-- **The last entry with a key counts.** -/
theorem get?_insertAll_of_last {es fs : List (κ × α)} (h : ∀ e ∈ fs, e.1 ≠ k) :
    (t.insertAll (es ++ (k, x) :: fs)).get? k = some x := by
  rw [insertAll_append]
  show (((t.insertAll es).insert k x).insertAll fs).get? k = some x
  rw [get?_insertAll_of_ne h]
  exact get?_insert_self

/-- What the entries say goes before what the table said. -/
theorem get?_insertAll {es : List (κ × α)} :
    (t.insertAll es).get? k = ((ofList es).get? k).or (t.get? k) := by
  by_cases hk : ∃ e ∈ es, e.1 = k
  · obtain ⟨fs, ⟨l, y⟩, gs, rfl, rfl, hgs⟩ := exists_last hk
    have hget : (ofList (fs ++ (l, y) :: gs)).get? l = some y := get?_insertAll_of_last hgs
    rw [get?_insertAll_of_last hgs, hget]
    rfl
  · have hne : ∀ e ∈ es, e.1 ≠ k := fun e he hek => hk ⟨e, he, hek⟩
    have hnone : (ofList es).get? k = none := (get?_insertAll_of_ne hne).trans get?_empty
    rw [get?_insertAll_of_ne hne, hnone]
    rfl

/-- A table made from entries with distinct keys holds just these. -/
theorem get?_ofList_of_nodup {es : List (κ × α)} (h : (es.map Prod.fst).Nodup) :
    (ofList es).get? k = some x ↔ (k, x) ∈ es := by
  by_cases hk : ∃ e ∈ es, e.1 = k
  · obtain ⟨fs, ⟨l, y⟩, gs, rfl, rfl, hgs⟩ := exists_last hk
    have hget : (ofList (fs ++ (l, y) :: gs)).get? l = some y := get?_insertAll_of_last hgs
    rw [hget, Option.some.injEq]
    refine ⟨?_, ?_⟩
    · intro hthis
      subst hthis
      exact List.mem_append_right _ List.mem_cons_self
    · intro hx
      rw [List.map_append, List.map_cons, List.nodup_append] at h
      rcases List.mem_append.mp hx with hx | hx
      · exact absurd rfl (h.2.2 l (List.mem_map_of_mem (f := Prod.fst) hx) l List.mem_cons_self)
      · rcases List.mem_cons.mp hx with hx | hx
        · exact (congrArg Prod.snd hx).symm
        · exact absurd rfl (hgs (l, x) hx)
  · have hnone : (ofList es).get? k = none :=
      (get?_insertAll_of_ne fun e he hek => hk ⟨e, he, hek⟩).trans get?_empty
    rw [hnone]
    refine ⟨?_, ?_⟩
    · intro hc
      cases hc
    · intro hx
      exact absurd ⟨(k, x), hx, rfl⟩ hk

theorem mem_keys_iff : k ∈ t.keys ↔ ∃ x, t.get? k = some x := by
  unfold keys
  rw [List.mem_map]
  refine ⟨?_, ?_⟩
  · rintro ⟨⟨l, x⟩, he, rfl⟩
    exact ⟨x, get?_eq_some_iff.mpr he⟩
  · rintro ⟨x, hx⟩
    exact ⟨(k, x), get?_eq_some_iff.mp hx, rfl⟩

theorem mem_keys_ofList {es : List (κ × α)} : k ∈ (ofList es).keys ↔ ∃ e ∈ es, e.1 = k := by
  rw [mem_keys_iff]
  refine ⟨?_, ?_⟩
  · rintro ⟨x, hx⟩
    refine Classical.byContradiction fun hno => ?_
    have hnone : (ofList es).get? k = none :=
      (get?_insertAll_of_ne fun e he hek => hno ⟨e, he, hek⟩).trans get?_empty
    rw [hnone] at hx
    cases hx
  · intro hk
    obtain ⟨fs, ⟨l, x⟩, gs, rfl, rfl, hgs⟩ := exists_last hk
    exact ⟨x, get?_insertAll_of_last hgs⟩

/-- A table made from its own entries, in any order, is the table again. -/
theorem ofList_of_perm {es : List (κ × α)} (h : es.Perm t.entries) : ofList es = t := by
  have hkeys : (es.map Prod.fst).Nodup := (h.map Prod.fst).nodup_iff.mpr t.nodup_keys
  refine ext fun k => Option.ext fun x => ?_
  rw [get?_ofList_of_nodup hkeys, h.mem_iff, get?_eq_some_iff]

/-- **The table on top counts.** -/
theorem get?_override {u : Table κ α} : (t.override u).get? k = (u.get? k).or (t.get? k) := by
  unfold override
  rw [get?_insertAll, ofList_of_perm (List.Perm.refl _)]

theorem ofList_append {es fs : List (κ × α)} :
    ofList (es ++ fs) = (ofList es).override (ofList fs) := by
  refine ext fun k => ?_
  rw [get?_override]
  unfold ofList
  rw [insertAll_append]
  exact get?_insertAll

/-- Entries with distinct keys are all kept. -/
theorem perm_ofList {es : List (κ × α)} (h : (es.map Prod.fst).Nodup) :
    (ofList es).entries.Perm es := by
  have hnodup := Sorted.nodup_of_ascending (ofList es).ascending
  refine (List.perm_ext_iff_of_nodup hnodup (List.Nodup.of_map Prod.fst h)).mpr ?_
  rintro ⟨k, x⟩
  rw [← get?_eq_some_iff, get?_ofList_of_nodup h]

/-! ### What a table weighs -/

/-- The sum of the weights of the entries. -/
def weight (w : κ × α → Nat) (t : Table κ α) : Nat := (t.entries.map w).sum

omit [Std.LawfulEqOrd κ] in
theorem nodup_entries (t : Table κ α) : t.entries.Nodup := Sorted.nodup_of_ascending t.ascending

/-- A new entry takes the place of the one with its key. -/
theorem perm_insert : (t.insert k x).entries.Perm ((k, x) :: (t.erase k).entries) := by
  have hnew : (k, x) ∉ (t.erase k).entries := fun h => (mem_erase_iff.mp h).2 rfl
  have hnodup := List.nodup_cons.mpr ⟨hnew, nodup_entries (t.erase k)⟩
  refine (List.perm_ext_iff_of_nodup (nodup_entries _) hnodup).mpr ?_
  intro e
  rw [insert, Sorted.mem_place_iff t.ascending, List.mem_cons, mem_erase_iff]
  exact or_congr_right (and_congr_right fun _ => ne_comm)

theorem perm_erase (h : t.get? k = some x) : t.entries.Perm ((k, x) :: (t.erase k).entries) := by
  have hsame : t.insert k x = t := by
    refine ext fun l => ?_
    by_cases hl : l = k
    · rw [hl, get?_insert_self, h]
    · exact get?_insert_of_ne hl
  have hperm := perm_insert (t := t) (k := k) (x := x)
  rwa [hsame] at hperm

theorem erase_of_none (h : t.get? k = none) : t.erase k = t := by
  refine ext fun l => ?_
  by_cases hl : l = k
  · rw [hl, get?_erase_self, h]
  · exact get?_erase_of_ne hl

variable {w : κ × α → Nat} {es : List (κ × α)}

theorem weight_insert : weight w (t.insert k x) = w (k, x) + weight w (t.erase k) :=
  (perm_insert.map w).sum_nat

theorem weight_erase (h : t.get? k = some x) : weight w t = w (k, x) + weight w (t.erase k) :=
  ((perm_erase h).map w).sum_nat

theorem weight_insert_le : weight w (t.insert k x) ≤ w (k, x) + weight w t := by
  rw [weight_insert]
  cases hget : t.get? k with
  | none =>
    have hsame := congrArg (weight w) (erase_of_none hget)
    omega
  | some y =>
    have hold := weight_erase (w := w) hget
    omega

theorem weight_insertAll_le (t : Table κ α) (es : List (κ × α)) :
    weight w (t.insertAll es) ≤ weight w t + (es.map w).sum := by
  induction es generalizing t with
  | nil => simp [insertAll]
  | cons e es ih =>
    obtain ⟨k, x⟩ := e
    have hmore : weight w (t.insertAll ((k, x) :: es)) ≤ _ := ih (t.insert k x)
    have hfirst := weight_insert_le (w := w) (t := t) (k := k) (x := x)
    simp only [List.map_cons, List.sum_cons]
    omega

theorem weight_ofList_le (es : List (κ × α)) : weight w (ofList es) ≤ (es.map w).sum := by
  have hle := weight_insertAll_le (w := w) empty es
  rwa [show weight w (empty : Table κ α) = 0 from rfl, Nat.zero_add] at hle

/-- Where nothing that weighs is lost, nothing has been replaced. -/
theorem nodup_of_weight_insertAll (positive : ∀ e, 0 < w e)
    (h : weight w (t.insertAll es) = weight w t + (es.map w).sum) :
    (es.map Prod.fst).Nodup ∧ ∀ e ∈ es, t.get? e.1 = none := by
  induction es generalizing t with
  | nil => simp
  | cons e es ih =>
    obtain ⟨k, x⟩ := e
    have hall : weight w ((t.insert k x).insertAll es) =
        weight w t + (w (k, x) + (es.map w).sum) := h
    have hrest := weight_insertAll_le (w := w) (t.insert k x) es
    have hfirst := weight_insert_le (w := w) (t := t) (k := k) (x := x)
    obtain ⟨hnodup, hnone⟩ := ih (t := t.insert k x) (by omega)
    have hnew : t.get? k = none := by
      cases hget : t.get? k with
      | none => rfl
      | some y =>
        have hnow := weight_insert (w := w) (t := t) (k := k) (x := x)
        have hold := weight_erase (w := w) hget
        have hpositive := positive (k, y)
        omega
    have hne : ∀ f ∈ es, f.1 ≠ k := by
      intro f hf hkey
      have hf' := hnone f hf
      rw [hkey, get?_insert_self] at hf'
      cases hf'
    refine ⟨List.nodup_cons.mpr ⟨?_, hnodup⟩, ?_⟩
    · intro hmem
      obtain ⟨f, hf, hkey⟩ := List.mem_map.mp hmem
      exact hne f hf hkey
    · intro f hf
      rcases List.mem_cons.mp hf with rfl | hf
      · exact hnew
      · rw [← get?_insert_of_ne (x := x) (hne f hf)]
        exact hnone f hf

/-- **A table weighs as much as its entries just if they have distinct keys.** -/
theorem weight_ofList_eq_iff (positive : ∀ e, 0 < w e) :
    weight w (ofList es) = (es.map w).sum ↔ (es.map Prod.fst).Nodup := by
  refine ⟨?_, ?_⟩
  · intro h
    refine (nodup_of_weight_insertAll (t := empty) positive ?_).1
    rw [show weight w (empty : Table κ α) = 0 from rfl, Nat.zero_add]
    exact h
  · intro h
    exact ((perm_ofList h).map w).sum_nat

end Table

end ProposerBook
