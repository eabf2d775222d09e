/-
Ascending lists.

Every collection of this library that has no order of its own is kept as a list
in ascending order of a key, with no key twice.  Such a list is determined by its
members, so two collections with the same members are the same value: equality
needs no detour through permutations, and whatever is printed or hashed from a
collection is printed in one order.

`place` is the only way a member gets in.  It keeps the order, and it replaces a
member with the same key.
-/

namespace ProposerBook

namespace Sorted

variable {α κ : Type} [Ord κ]

/-- The keys of `xs` ascend strictly. -/
def Ascending (key : α → κ) (xs : List α) : Prop :=
  xs.Pairwise fun a b => compare (key a) (key b) = .lt

instance (key : α → κ) (xs : List α) : Decidable (Ascending key xs) :=
  inferInstanceAs (Decidable (xs.Pairwise _))

/-- Puts `x` where its key belongs, in place of a member with the same key. -/
def place (key : α → κ) (x : α) : List α → List α
  | [] => [x]
  | y :: ys =>
    match compare (key x) (key y) with
    | .lt => x :: y :: ys
    | .eq => x :: ys
    | .gt => y :: place key x ys

theorem ascending_nil (key : α → κ) : Ascending key [] := List.Pairwise.nil

/-- What `place` yields is the new member and some of the old ones. -/
theorem mem_place {key : α → κ} {x y : α} {xs : List α} (h : y ∈ place key x xs) :
    y = x ∨ y ∈ xs := by
  induction xs with
  | nil => simpa [place] using h
  | cons z zs ih =>
    rw [place] at h
    split at h
    · simpa using h
    · rcases List.mem_cons.mp h with rfl | h
      · exact Or.inl rfl
      · exact Or.inr (List.mem_cons_of_mem _ h)
    · rcases List.mem_cons.mp h with rfl | h
      · exact Or.inr List.mem_cons_self
      · exact (ih h).imp id (List.mem_cons_of_mem _)

/-- Placing a member keeps the order. -/
theorem ascending_place [Std.TransOrd κ] [Std.LawfulEqOrd κ] {key : α → κ} {xs : List α}
    (h : Ascending key xs) (x : α) : Ascending key (place key x xs) := by
  induction xs with
  | nil => exact List.pairwise_singleton _ _
  | cons y ys ih =>
    have hy : ∀ z ∈ ys, compare (key y) (key z) = .lt :=
      fun _ hz => List.rel_of_pairwise_cons h hz
    rw [place]
    split
    · rename_i hlt
      refine List.Pairwise.cons (fun z hz => ?_) h
      rcases List.mem_cons.mp hz with rfl | hz
      · exact hlt
      · exact Std.TransCmp.lt_trans hlt (hy z hz)
    · rename_i heq
      refine List.Pairwise.cons (fun z hz => ?_) h.of_cons
      rw [Std.LawfulEqCmp.eq_of_compare heq]
      exact hy z hz
    · rename_i hgt
      refine List.Pairwise.cons (fun z hz => ?_) (ih h.of_cons)
      rcases mem_place hz with rfl | hz
      · exact Std.OrientedCmp.gt_iff_lt.mp hgt
      · exact hy z hz

/-- Taking members out keeps the order. -/
theorem ascending_filter {key : α → κ} {xs : List α} (h : Ascending key xs) (p : α → Bool) :
    Ascending key (xs.filter p) :=
  List.Pairwise.sublist List.filter_sublist h

end Sorted

end ProposerBook
