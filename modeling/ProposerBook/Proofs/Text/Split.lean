/-
Pieces of a text.

A text is split at a character into pieces that do not have it, and such pieces are what comes out
again when they are put together with the character between them.
-/
import Mathlib.Data.List.Basic

namespace ProposerBook

namespace Text

variable {x c : Char} {cs piece : List Char} {pieces : List (List Char)}

/-- What a piece has is in the text, and it is not what the text is split at. -/
theorem mem_of_mem_splitOn (h : piece ∈ cs.splitOn x) (hc : c ∈ piece) : c ∈ cs ∧ c ≠ x := by
  induction hn : cs.length using Nat.strongRecOn generalizing cs with
  | ind n ih =>
    by_cases hx : x ∈ cs
    · obtain ⟨before, after, rfl, hbefore⟩ := List.eq_append_cons_of_mem hx
      rw [List.splitOn_append_cons_self_of_not_mem hbefore] at h
      rcases List.mem_cons.mp h with rfl | hlater
      · exact ⟨List.mem_append_left _ hc, fun heq => hbefore (heq ▸ hc)⟩
      · have hshorter : after.length < n := by
          rw [← hn, List.length_append, List.length_cons]
          omega
        obtain ⟨hmem, hother⟩ := ih after.length hshorter hlater rfl
        exact ⟨List.mem_append_right _ (List.mem_cons_of_mem _ hmem), hother⟩
    · rw [List.splitOn_eq_singleton hx, List.mem_singleton] at h
      subst h
      exact ⟨hc, fun heq => hx (heq ▸ hc)⟩

/-- What is put together has what its pieces have and what stands between them. -/
theorem mem_intercalate (h : c ∈ [x].intercalate pieces) : c = x ∨ ∃ piece ∈ pieces, c ∈ piece := by
  induction pieces with
  | nil => cases h
  | cons p ps ih =>
    cases ps with
    | nil =>
      rw [List.intercalate_singleton] at h
      exact Or.inr ⟨p, List.mem_cons_self, h⟩
    | cons q qs =>
      rw [List.intercalate_cons_cons, List.append_assoc] at h
      rcases List.mem_append.mp h with hp | hmore
      · exact Or.inr ⟨p, List.mem_cons_self, hp⟩
      · rcases List.mem_cons.mp hmore with rfl | hmore
        · exact Or.inl rfl
        · obtain heq | ⟨piece, hmem, hc⟩ := ih hmore
          · exact Or.inl heq
          · exact Or.inr ⟨piece, List.mem_cons_of_mem _ hmem, hc⟩

end Text

end ProposerBook
