/-
A text in lower case stays as it is.

What lower-casing yields are characters that are their own lower-case form, so it does nothing
when it is done again.  For the table this is seen from the runs: where the lower-case forms of
one run lie, no other run lies, unless both go in steps of two and pass each other by.  The
capital sigma, which is lower-cased with an eye to its neighbours, is no lower-case form.
-/
import ProposerBook.Text.Lowercase

namespace ProposerBook

namespace Text

/-! ### Runs -/

/-- Upper-case characters: first, last, step, and the distance to the lower-case form. -/
abbrev Run := Nat × Nat × Nat × Int

namespace Run

/-- `n` is in the run. -/
def covers (r : Run) (n : Nat) : Bool := r.1 ≤ n && n ≤ r.2.1 && (n - r.1) % r.2.2.1 == 0

/-- The lower-case form of a member. -/
def lowered (r : Run) (n : Nat) : Nat := Int.toNat (n + r.2.2.2)

/-- The run lies before the numbers from `first` to `last` in steps of `step`, or behind them, or
between them. -/
def avoids (first last step : Nat) (r : Run) : Bool :=
  Nat.blt r.2.1 first || Nat.blt last r.1 ||
    (Nat.beq r.2.2.1 2 && (Nat.beq step 2 || Nat.beq first last) &&
      Nat.beq ((first + r.1) % 2) 1)

/-- The numbers from `first` to `last` are characters, and none is a capital letter of ASCII. -/
def lands (first last : Nat) : Bool :=
  Nat.blt 0x5a first && (Nat.blt last 0xd800 || Nat.blt 0xdfff first && Nat.blt last 0x110000)

theorem covers_iff {r : Run} {n : Nat} :
    r.covers n = true ↔ r.1 ≤ n ∧ n ≤ r.2.1 ∧ (n - r.1) % r.2.2.1 = 0 := by
  simp [covers, and_assoc]

theorem not_covers_of_avoids {first last step n : Nat} {r : Run}
    (h : avoids first last step r = true) (low : first ≤ n) (high : n ≤ last)
    (steps : (n - first) % step = 0) : r.covers n = false := by
  rw [Bool.eq_false_iff, ne_eq, covers_iff]
  rintro ⟨hlow, hhigh, hsteps⟩
  simp only [avoids, Bool.or_eq_true, Bool.and_eq_true, Nat.blt_eq, Nat.beq_eq] at h
  rcases h with (hbefore | hbehind) | ⟨⟨htwo, hother⟩, hodd⟩
  · omega
  · omega
  · rw [htwo] at hsteps
    rcases hother with rfl | rfl
    · omega
    · omega

/-- Between the lower-case forms of the ends, those of the members lie as the members do. -/
theorem lowered_between {r : Run} {n : Nat} (h : lands (r.lowered r.1) (r.lowered r.2.1) = true)
    (low : r.1 ≤ n) (high : n ≤ r.2.1) :
    r.lowered n - r.lowered r.1 = n - r.1 ∧ r.lowered r.1 ≤ r.lowered n ∧
      r.lowered n ≤ r.lowered r.2.1 := by
  simp only [lands, Bool.and_eq_true, Nat.blt_eq] at h
  have hpositive := h.1
  unfold lowered at hpositive ⊢
  omega

theorem isValidChar_of_lands {first last n : Nat} (h : lands first last = true) (low : first ≤ n)
    (high : n ≤ last) : n.isValidChar ∧ 0x5a < n := by
  simp only [lands, Bool.or_eq_true, Bool.and_eq_true, Nat.blt_eq] at h
  obtain ⟨hletter, hlow | ⟨hfirst, hlast⟩⟩ := h
  · exact ⟨Or.inl (by omega), by omega⟩
  · exact ⟨Or.inr ⟨by omega, by omega⟩, by omega⟩

end Run

/-- No run of the table, nor the dotted capital I, meets the lower-case forms of a run. -/
theorem avoids_of_mem : (lowerRuns.all fun r =>
    ((0x130, 0x130, 1, 0) :: lowerRuns).all
      (Run.avoids (Run.lowered r r.1) (Run.lowered r r.2.1) r.2.2.1)) = true := by
  decide +kernel

theorem lands_of_mem : (lowerRuns.all fun r =>
    Run.lands (Run.lowered r r.1) (Run.lowered r r.2.1)) = true := by
  decide +kernel

/-! ### One character -/

/-- A character that lower-casing leaves alone, wherever it stands. -/
def IsLower (c : Char) : Prop := c ≠ 'Σ' ∧ lowerChar c = [c]

instance (c : Char) : Decidable (IsLower c) := inferInstanceAs (Decidable (_ ∧ _))

theorem isLower_of_ascii : ∀ n < 0x80, ¬(0x41 ≤ n ∧ n ≤ 0x5a) → IsLower (Char.ofNat n) := by
  decide +kernel

/-- A character beyond ASCII that is in no run is its own lower-case form. -/
theorem isLower_of_not_covers {c : Char} (beyond : 0x80 ≤ c.toNat) (dotted : c.toNat ≠ 0x130)
    (apart : ∀ r ∈ lowerRuns, Run.covers r c.toNat = false) : IsLower c := by
  refine ⟨?_, ?_⟩
  · rintro rfl
    have hsigma : ∃ r ∈ lowerRuns, Run.covers r 0x3a3 = true := by decide
    obtain ⟨r, hr, hcovers⟩ := hsigma
    rw [show (0x3a3 : Nat) = 'Σ'.toNat from rfl, apart r hr] at hcovers
    cases hcovers
  · have hnone : (lowerRuns.find? fun r => r.1 ≤ c.toNat && c.toNat ≤ r.2.1
        && (c.toNat - r.1) % r.2.2.1 == 0) = none := by
      rw [List.find?_eq_none]
      intro r hr
      exact Bool.eq_false_iff.mp (apart r hr)
    unfold lowerChar
    simp only
    rw [if_neg (by omega), if_neg dotted, hnone]

/-- **The lower-case form of a member of a run is its own.** -/
theorem isLower_of_covers {r : Run} (hr : r ∈ lowerRuns) {n : Nat} (h : r.covers n = true) :
    IsLower (Char.ofNat (r.lowered n)) := by
  obtain ⟨hlow, hhigh, hsteps⟩ := Run.covers_iff.mp h
  have hlands := List.all_eq_true.mp lands_of_mem r hr
  obtain ⟨hplace, hfirst, hlast⟩ := Run.lowered_between hlands hlow hhigh
  obtain ⟨hvalid, hletter⟩ := Run.isValidChar_of_lands hlands hfirst hlast
  have hchar : (Char.ofNat (r.lowered n)).toNat = r.lowered n := by
    unfold Char.ofNat
    rw [dif_pos hvalid]
    rfl
  have hapart : ∀ q ∈ (0x130, 0x130, 1, 0) :: lowerRuns,
      Run.covers q (r.lowered n) = false := by
    intro q hq
    refine Run.not_covers_of_avoids ?_ hfirst hlast (hplace ▸ hsteps)
    exact List.all_eq_true.mp (List.all_eq_true.mp avoids_of_mem r hr) q hq
  by_cases hascii : r.lowered n < 0x80
  · exact isLower_of_ascii _ hascii fun hcapital => by omega
  · refine isLower_of_not_covers ?_ ?_ ?_
    · omega
    · intro hdotted
      have hno := hapart _ List.mem_cons_self
      rw [← hchar, hdotted] at hno
      cases hno
    · intro q hq
      rw [hchar]
      exact hapart q (List.mem_cons_of_mem _ hq)

/-- The dot above that the dotted capital I is lower-cased with. -/
theorem isLower_dotAbove : IsLower (Char.ofNat 0x307) := by
  have hapart : (lowerRuns.all fun r => !Run.covers r 0x307) = true := by decide +kernel
  refine isLower_of_not_covers (by decide) (by decide) fun r hr => ?_
  simpa using List.all_eq_true.mp hapart r hr

/-- **What a character is lower-cased to stays as it is.** -/
theorem isLower_of_mem_lowerChar {c d : Char} (plain : c ≠ 'Σ') (hd : d ∈ lowerChar c) :
    IsLower d := by
  have hsame : Char.ofNat c.toNat = c := Char.ofNat_toNat c
  by_cases hascii : c.toNat < 0x80
  · have hcapital : ('A' ≤ c ∧ c ≤ 'Z') ↔ 0x41 ≤ c.toNat ∧ c.toNat ≤ 0x5a := Iff.rfl
    simp only [lowerChar, if_pos hascii] at hd
    by_cases hletter : 'A' ≤ c ∧ c ≤ 'Z'
    · rw [if_pos hletter, List.mem_singleton] at hd
      rw [hcapital] at hletter
      rw [hd]
      exact isLower_of_ascii _ (by omega) (by omega)
    · rw [if_neg hletter, List.mem_singleton] at hd
      rw [hd, ← hsame]
      exact isLower_of_ascii _ hascii fun h => hletter (hcapital.mpr h)
  · by_cases hdotted : c.toNat = 0x130
    · have hforms : lowerChar c = ['i', Char.ofNat 0x307] := by
        simp only [lowerChar, if_neg hascii, if_pos hdotted]
      rw [hforms] at hd
      rcases List.mem_cons.mp hd with rfl | hd
      · exact isLower_of_ascii 0x69 (by decide) (by decide)
      · rw [List.mem_singleton.mp hd]
        exact isLower_dotAbove
    · have hforms : lowerChar c = match lowerRuns.find? fun r => Run.covers r c.toNat with
          | some r => [Char.ofNat (Run.lowered r c.toNat)]
          | none => [c] := by
        simp only [lowerChar, if_neg hascii, if_neg hdotted]
        rfl
      rw [hforms] at hd
      cases hfind : lowerRuns.find? fun r => Run.covers r c.toNat with
      | some r =>
        rw [hfind] at hd
        rw [List.mem_singleton.mp hd]
        exact isLower_of_covers (List.mem_of_find?_eq_some hfind)
          (List.find?_some (p := fun r => Run.covers r c.toNat) hfind)
      | none =>
        rw [hfind] at hd
        rw [List.mem_singleton.mp hd]
        refine ⟨plain, ?_⟩
        rw [hforms, hfind]

/-! ### Texts -/

theorem isLower_of_mem_lowerFrom {before cs : List Char} {d : Char}
    (hd : d ∈ lowerFrom before cs) : IsLower d := by
  induction cs generalizing before with
  | nil => cases hd
  | cons c cs ih =>
    unfold lowerFrom at hd
    simp only at hd
    rcases List.mem_append.mp hd with hhere | hrest
    · by_cases hsigma : c = 'Σ'
      · rw [if_pos hsigma] at hhere
        split at hhere
        · rw [List.mem_singleton.mp hhere]
          decide
        · rw [List.mem_singleton.mp hhere]
          decide
      · rw [if_neg hsigma] at hhere
        exact isLower_of_mem_lowerChar hsigma hhere
    · exact ih hrest

theorem lowerFrom_of_isLower {before cs : List Char} (h : ∀ c ∈ cs, IsLower c) :
    lowerFrom before cs = cs := by
  induction cs generalizing before with
  | nil => rfl
  | cons c cs ih =>
    obtain ⟨hsigma, hsame⟩ := h c List.mem_cons_self
    unfold lowerFrom
    simp only
    rw [if_neg hsigma, hsame, ih fun d hd => h d (List.mem_cons_of_mem _ hd)]
    rfl

/-- **Lower-casing twice is lower-casing once.** -/
theorem lower_lower (s : String) : lower (lower s) = lower s := by
  unfold lower
  rw [String.toList_ofList]
  exact congrArg String.ofList (lowerFrom_of_isLower fun _ hd => isLower_of_mem_lowerFrom hd)

end Text

end ProposerBook
