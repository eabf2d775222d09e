/-
What the simple decoders accept.

A decoder that wants one shape accepts this shape and refuses every other, whatever it finds
wrong with it.  A list is accepted if all of its items are, one by one, and it is refused with
what the first bad item is refused with.  So what a decoder accepts is told by the tree alone,
without the order in which the faults would have been found.
-/
import Mathlib.Data.List.Forall2
import ProposerBook.Json.Decode
import ProposerBook.Proofs.Outcome

namespace ProposerBook

namespace Json

variable {ε α : Type} {d : Decoder ε α} {t : Tree} {ts : List Tree}

/-! ### Faults -/

theorem skipItems_eq_none_iff : skipItems ts = none ↔ ∀ t ∈ ts, t.skip = none := by
  induction ts with
  | nil => simp [skipItems]
  | cons t ts ih => simp [skipItems, Option.or_eq_none_iff, ih]

theorem skipEntries_eq_none_iff {es : List (StringLiteral × Tree)} :
    skipEntries es = none ↔ ∀ e ∈ es, e.2.skip = none := by
  induction es with
  | nil => simp [skipEntries]
  | cons e es ih => simp [skipEntries, Option.or_eq_none_iff, ih]

theorem liftFault_eq_ok_iff {x : Except Fault α} {a : α} :
    (liftFault x : Except (Refusal ε) α) = .ok a ↔ x = .ok a :=
  mapError_eq_ok_iff

theorem liftFault_ok (a : α) : (liftFault (.ok a) : Except (Refusal ε) α) = .ok a := rfl

theorem guardFault_eq_ok_iff {f : Option Fault} {u : Unit} :
    (guardFault f : Except (Refusal ε) Unit) = .ok u ↔ f = none := by
  cases f with
  | none => simp [guardFault]
  | some f => simp [guardFault]

theorem ignored_eq_ok_iff {u : Unit} :
    (ignored t : Except (Refusal ε) Unit) = .ok u ↔ t.skip = none :=
  guardFault_eq_ok_iff

theorem closing_eq_ok_iff {stop : Option Break} {u : Unit} :
    (closing stop : Except (Refusal ε) Unit) = .ok u ↔ stop = none := by
  unfold closing
  rw [guardFault_eq_ok_iff, Option.map_eq_none_iff]

/-! ### Shapes -/

theorem refuse_ne_ok {expected : String} {x : α} :
    (refuse expected t : Except (Refusal ε) α) ≠ .ok x := by
  intro h
  obtain ⟨found, -, hend⟩ := bind_eq_ok_iff.mp h
  cases hend

theorem string_eq_ok_iff {s : String} :
    (string t : Except (Refusal ε) String) = .ok s ↔ t = .string (.ok s) := by
  cases t with
  | string x =>
    show liftFault x = .ok s ↔ _
    rw [liftFault_eq_ok_iff, Tree.string.injEq]
  | _ =>
    refine iff_of_false refuse_ne_ok ?_
    simp

/-- Nothing is wrong with a text that is read. -/
theorem skip_of_string {s : String} (h : (string t : Except (Refusal ε) String) = .ok s) :
    t.skip = none := by
  rw [string_eq_ok_iff.mp h]
  rfl

theorem string_bind (s : String) (f : String → Except (Refusal ε) α) :
    (string (.string (.ok s)) >>= f) = f s := rfl

theorem optional_of_ne_null (h : t ≠ .null) : optional d t = (d t).map some := by
  cases t with
  | null => exact absurd rfl h
  | _ => rfl

/-- A list is accepted item by item. -/
theorem items_eq_ok_iff {xs : List α} :
    items d ts = .ok xs ↔ List.Forall₂ (fun t x => d t = .ok x) ts xs := by
  induction ts generalizing xs with
  | nil =>
    rw [List.forall₂_nil_left_iff]
    simp [items, eq_comm]
  | cons t ts ih =>
    rw [List.forall₂_cons_left_iff]
    constructor
    · intro h
      obtain ⟨x, hx, hmore⟩ := bind_eq_ok_iff.mp h
      obtain ⟨ys, hys, hend⟩ := bind_eq_ok_iff.mp hmore
      cases hend
      exact ⟨x, ys, hx, ih.mp hys, rfl⟩
    · rintro ⟨x, ys, hx, hys, rfl⟩
      exact bind_eq_ok_iff.mpr ⟨x, hx, bind_eq_ok_iff.mpr ⟨ys, ih.mpr hys, rfl⟩⟩

/-- **A list is refused with what its first bad item is refused with.** -/
theorem items_eq_error_iff {e : Refusal ε} :
    items d ts = .error e ↔ ∃ before t after, ts = before ++ t :: after ∧
      (∀ u ∈ before, ∃ x, d u = .ok x) ∧ d t = .error e := by
  induction ts with
  | nil => simp [items]
  | cons t ts ih =>
    constructor
    · intro h
      rcases bind_eq_error_iff.mp h with hbad | ⟨x, hx, hmore⟩
      · exact ⟨[], t, ts, rfl, nofun, hbad⟩
      rcases bind_eq_error_iff.mp hmore with hlater | ⟨xs, -, hend⟩
      · obtain ⟨before, u, after, rfl, fine, hbad⟩ := ih.mp hlater
        exact ⟨t :: before, u, after, rfl, List.forall_mem_cons.mpr ⟨⟨x, hx⟩, fine⟩, hbad⟩
      · cases hend
    · rintro ⟨before, u, after, hts, fine, hbad⟩
      refine bind_eq_error_iff.mpr ?_
      cases before with
      | nil =>
        obtain ⟨rfl, -⟩ := List.cons.inj hts
        exact Or.inl hbad
      | cons v before =>
        obtain ⟨rfl, rfl⟩ := List.cons.inj hts
        obtain ⟨⟨x, hx⟩, fine⟩ := List.forall_mem_cons.mp fine
        have hlater := ih.mpr ⟨before, u, after, rfl, fine, hbad⟩
        exact Or.inr ⟨x, hx, bind_eq_error_iff.mpr (Or.inl hlater)⟩

theorem list_eq_ok_iff {xs : List α} :
    list d t = .ok xs ↔ ∃ ts, t = .array ts none ∧ List.Forall₂ (fun t x => d t = .ok x) ts xs := by
  cases t with
  | array ts stop =>
    constructor
    · intro h
      obtain ⟨ys, hys, hmore⟩ := bind_eq_ok_iff.mp h
      obtain ⟨u, hstop, hend⟩ := bind_eq_ok_iff.mp hmore
      cases hend
      rw [closing_eq_ok_iff.mp hstop]
      exact ⟨ts, rfl, items_eq_ok_iff.mp hys⟩
    · rintro ⟨us, heq, hitems⟩
      cases heq
      refine bind_eq_ok_iff.mpr ⟨xs, items_eq_ok_iff.mpr hitems, ?_⟩
      exact bind_eq_ok_iff.mpr ⟨(), rfl, rfl⟩
  | _ =>
    refine iff_of_false refuse_ne_ok ?_
    simp

end Json

end ProposerBook
