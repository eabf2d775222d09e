/-
What trimming leaves.

Trimming takes the blanks off both ends and nothing else, so a text without blanks comes out
of any blanks that it is put into, and whatever comes out of a text had only blanks around it.
-/
import ProposerBook.Text.Blank

namespace ProposerBook

namespace Text

theorem trimStartChars_append {before cs : List Char} (h : ∀ c ∈ before, isBlank c = true) :
    trimStartChars (before ++ cs) = trimStartChars cs :=
  List.dropWhile_append_of_pos h

theorem trimStartChars_of_head {c : Char} {cs : List Char} (h : isBlank c = false) :
    trimStartChars (c :: cs) = c :: cs :=
  List.dropWhile_cons_of_neg (Bool.eq_false_iff.mp h)

theorem exists_trimStartChars (cs : List Char) :
    ∃ before, cs = before ++ trimStartChars cs ∧ ∀ c ∈ before, isBlank c = true := by
  refine ⟨cs.takeWhile isBlank, List.takeWhile_append_dropWhile.symm, ?_⟩
  intro c hc
  exact List.all_eq_true.mp List.all_takeWhile c hc

/-- Trimming takes off blanks only. -/
theorem exists_trimChars (cs : List Char) :
    ∃ before after, cs = before ++ trimChars cs ++ after ∧ (∀ c ∈ before, isBlank c = true) ∧
      ∀ c ∈ after, isBlank c = true := by
  obtain ⟨before, hfront, hbefore⟩ := exists_trimStartChars cs
  obtain ⟨after, hback, hafter⟩ := exists_trimStartChars (trimStartChars cs).reverse
  have hrest : trimStartChars cs = trimChars cs ++ after.reverse := by
    rw [← List.reverse_reverse (trimStartChars cs), hback, List.reverse_append]
    rfl
  refine ⟨before, after.reverse, ?_, hbefore, ?_⟩
  · rw [List.append_assoc, ← hrest]
    exact hfront
  · intro c hc
    exact hafter c (List.mem_reverse.mp hc)

/-- **A text without blanks is what trimming leaves**, whatever blanks are around it. -/
theorem trimChars_append {before cs after : List Char} (hbefore : ∀ c ∈ before, isBlank c = true)
    (hcs : ∀ c ∈ cs, isBlank c = false) (hafter : ∀ c ∈ after, isBlank c = true) :
    trimChars (before ++ cs ++ after) = cs := by
  have hblank : trimStartChars after = [] := by
    rw [← List.append_nil after, trimStartChars_append hafter]
    rfl
  have hreverse : ∀ c ∈ after.reverse, isBlank c = true :=
    fun c hc => hafter c (List.mem_reverse.mp hc)
  unfold trimChars
  rw [List.append_assoc, trimStartChars_append hbefore]
  cases cs with
  | nil =>
    rw [List.nil_append, hblank]
    rfl
  | cons c cs =>
    have hhead : trimStartChars (c :: cs ++ after) = c :: cs ++ after :=
      trimStartChars_of_head (hcs c List.mem_cons_self)
    rw [hhead, List.reverse_append, trimStartChars_append hreverse]
    -- The last character of the text stops the second sweep.
    have hlast : trimStartChars (c :: cs).reverse = (c :: cs).reverse := by
      cases hrev : (c :: cs).reverse with
      | nil => rfl
      | cons d ds =>
        refine trimStartChars_of_head (hcs d ?_)
        rw [← List.mem_reverse, hrev]
        exact List.mem_cons_self
    rw [hlast, List.reverse_reverse]

end Text

end ProposerBook
