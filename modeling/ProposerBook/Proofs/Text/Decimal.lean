/-
A number in decimal is read as itself.

The reader stops as soon as what it has read no longer fits, and every digit only makes the
number greater.  So if the whole fits, so does what is read of it at any time.  Zeros before the
number and a plus sign before those make no difference, nor do blanks around it where a text is
trimmed first.  No other text is read.
-/
import ProposerBook.Proofs.Outcome
import ProposerBook.Proofs.Text.Blank
import ProposerBook.Text.Decimal

namespace ProposerBook

namespace Decimal

theorem digit?_of_isDigit {c : Char} (h : c.isDigit = true) :
    digit? c = some (c.toNat - '0'.toNat) := by
  have hc := Char.isDigit_iff_toNat.mp h
  exact if_pos ⟨UInt32.le_iff_toNat_le.mpr hc.1, UInt32.le_iff_toNat_le.mpr hc.2⟩

theorem le_ofDigitChars (cs : List Char) (n : Nat) : n ≤ Nat.ofDigitChars 10 cs n := by
  induction cs generalizing n with
  | nil => exact Nat.le_refl n
  | cons c cs ih =>
    rw [Nat.ofDigitChars_cons]
    exact Nat.le_trans (by omega) (ih _)

theorem readDigits_of_digits {bound : Nat} {cs : List Char} (n : Nat)
    (digits : ∀ c ∈ cs, c.isDigit = true) (fits : Nat.ofDigitChars 10 cs n < bound) :
    readDigits bound n cs = .ok (Nat.ofDigitChars 10 cs n) := by
  induction cs generalizing n with
  | nil => rfl
  | cons c cs ih =>
    rw [Nat.ofDigitChars_cons] at fits ⊢
    have hmore := le_ofDigitChars cs (10 * n + (c.toNat - '0'.toNat))
    unfold readDigits
    rw [if_neg (by omega), digit?_of_isDigit (digits c List.mem_cons_self)]
    dsimp only
    rw [if_neg (by omega), Nat.mul_comm n 10]
    exact ih _ (fun d hd => digits d (List.mem_cons_of_mem _ hd)) fits

/-- A plus sign may stand before the digits. -/
def signs : List (List Char) := [[], ['+']]

/-- Digits that make up a word are read, with a sign or without. -/
theorem parseWord_of_digits {sign digits : List Char} {w : UInt64} (hsign : sign ∈ signs)
    (nonempty : digits ≠ []) (decimal : ∀ c ∈ digits, c.isDigit = true)
    (value : Nat.ofDigitChars 10 digits 0 = w.toNat) :
    parseWord (String.ofList (sign ++ digits)) = .ok w := by
  have hfits : Nat.ofDigitChars 10 digits 0 < Word.bound := by
    rw [value]
    exact w.toNat_lt
  have hread := readDigits_of_digits 0 decimal hfits
  have hparse : parse Word.bound (String.ofList (sign ++ digits)) = .ok w.toNat := by
    unfold parse
    rw [String.toList_ofList, ← value, ← hread]
    rcases List.mem_cons.mp hsign with rfl | hsign
    · rw [List.nil_append]
      split
      · exact absurd rfl nonempty
      · exact absurd (decimal '+' List.mem_cons_self) (by decide)
      · rfl
    · rw [List.mem_singleton.mp hsign]
      cases digits with
      | nil => exact absurd rfl nonempty
      | cons c cs => rfl
  unfold parseWord
  rw [hparse]
  show Except.ok (UInt64.ofNat w.toNat) = _
  rw [UInt64.ofNat_toNat]

theorem isDigit_of_mem_toDigits {n : Nat} : ∀ c ∈ Nat.toDigits 10 n, c.isDigit = true :=
  fun _ hc => Nat.isDigit_of_mem_toDigits (by decide) (by decide) hc

theorem toString_eq (n : Nat) : toString n = String.ofList ([] ++ Nat.toDigits 10 n) := by
  rw [List.nil_append, Nat.toString_eq_repr, ← Nat.toList_repr, String.ofList_toList]

/-- **A word in decimal is read.** -/
theorem parseWord_toString (w : UInt64) : parseWord (toString w.toNat) = .ok w := by
  rw [toString_eq]
  exact parseWord_of_digits List.mem_cons_self Nat.toDigits_ne_nil isDigit_of_mem_toDigits
    Nat.ofDigitChars_ten_toDigits

/-! ### Every text of a word -/

/-- A text that stands for a word: its digits, perhaps with zeros and a plus sign before them, and
perhaps with blanks around. -/
def Spells (s : String) (w : UInt64) : Prop :=
  ∃ before sign digits after, s.toList = before ++ (sign ++ digits) ++ after ∧
    (∀ c ∈ before, Text.isBlank c = true) ∧ sign ∈ signs ∧ digits ≠ [] ∧
    (∀ c ∈ digits, c.isDigit = true) ∧ Nat.ofDigitChars 10 digits 0 = w.toNat ∧
    ∀ c ∈ after, Text.isBlank c = true

theorem isBlank_of_isDigit {c : Char} (h : c.isDigit = true) : Text.isBlank c = false := by
  have hc := Char.isDigit_iff_toNat.mp h
  have hzero : '0'.toNat = 48 := rfl
  have hnine : '9'.toNat = 57 := rfl
  simp only [Text.isBlank, CharRanges.contains, Text.blanks, List.any_cons, List.any_nil,
    Bool.or_false, Bool.or_eq_false_iff, Bool.and_eq_false_imp, decide_eq_true_eq,
    decide_eq_false_iff_not, Nat.not_le]
  omega

/-- **Every text of a word is read as this word**, blanks aside. -/
theorem Spells.parseWord_trim {s : String} {w : UInt64} (h : Spells s w) :
    parseWord (Text.trim s) = .ok w := by
  obtain ⟨before, sign, digits, after, hs, hbefore, hsign, hsome, hdigits, hvalue, hafter⟩ := h
  have hclear : ∀ c ∈ sign ++ digits, Text.isBlank c = false := by
    intro c hc
    rcases List.mem_append.mp hc with hc | hc
    · have hsigns : (signs.all fun s => s.all fun c => !Text.isBlank c) = true := by decide
      have hplain := List.all_eq_true.mp (List.all_eq_true.mp hsigns sign hsign) c hc
      exact (Bool.not_eq_true' _).mp hplain
    · exact isBlank_of_isDigit (hdigits c hc)
  unfold Text.trim
  rw [hs, Text.trimChars_append hbefore hclear hafter]
  exact parseWord_of_digits hsign hsome hdigits hvalue

/-! ### Texts that are read -/

theorem isDigit_of_digit? {c : Char} {d : Nat} (h : digit? c = some d) :
    c.isDigit = true ∧ d = c.toNat - '0'.toNat := by
  unfold digit? at h
  split at h
  · rename_i hc
    obtain ⟨hzero, hnine⟩ := hc
    refine ⟨Char.isDigit_iff_toNat.mpr ⟨?_, ?_⟩, (Option.some.inj h).symm⟩
    · exact UInt32.le_iff_toNat_le.mp hzero
    · exact UInt32.le_iff_toNat_le.mp hnine
  · cases h

/-- What is read has digits only, and they make up a number that fits. -/
theorem digits_of_readDigits {bound n m : Nat} {cs : List Char} (start : n < bound)
    (h : readDigits bound n cs = .ok m) :
    (∀ c ∈ cs, c.isDigit = true) ∧ Nat.ofDigitChars 10 cs n = m ∧ m < bound := by
  induction cs generalizing n with
  | nil =>
    cases h
    exact ⟨nofun, rfl, start⟩
  | cons c cs ih =>
    unfold readDigits at h
    cases hdigit : digit? c with
    | none =>
      rw [hdigit] at h
      split at h <;> cases h
    | some d =>
      obtain ⟨hc, rfl⟩ := isDigit_of_digit? hdigit
      simp only [hdigit] at h
      split at h
      · cases h
      split at h
      · cases h
      rename_i hfits
      obtain ⟨hall, hvalue, hbound⟩ := ih (by omega) h
      rw [Nat.ofDigitChars_cons, Nat.mul_comm 10 n]
      exact ⟨List.forall_mem_cons.mpr ⟨hc, hall⟩, hvalue, hbound⟩

/-- What is read as a number is its digits, perhaps behind a plus sign. -/
theorem spelled_of_parse {bound n : Nat} {s : String} (positive : 0 < bound)
    (h : parse bound s = .ok n) : ∃ sign digits, s.toList = sign ++ digits ∧ sign ∈ signs ∧
      digits ≠ [] ∧ (∀ c ∈ digits, c.isDigit = true) ∧ Nat.ofDigitChars 10 digits 0 = n ∧
      n < bound := by
  unfold parse at h
  split at h
  · cases h
  · rename_i c cs hs
    obtain ⟨hall, hvalue, hfits⟩ := digits_of_readDigits positive h
    exact ⟨['+'], c :: cs, hs, by decide, by simp, hall, hvalue, hfits⟩
  · rename_i hempty _
    obtain ⟨hall, hvalue, hfits⟩ := digits_of_readDigits positive h
    exact ⟨[], s.toList, rfl, by decide, hempty, hall, hvalue, hfits⟩

/-- **The texts of a word are those that are read as it**, blanks aside. -/
theorem parseWord_trim_eq_ok_iff {s : String} {w : UInt64} :
    parseWord (Text.trim s) = .ok w ↔ Spells s w := by
  refine ⟨?_, Spells.parseWord_trim⟩
  intro h
  obtain ⟨n, hn, hw⟩ := map_eq_ok_iff.mp h
  obtain ⟨sign, digits, htrim, hsign, hsome, hdigits, hvalue, hfits⟩ :=
    spelled_of_parse (by decide) hn
  obtain ⟨before, after, hs, hbefore, hafter⟩ := Text.exists_trimChars s.toList
  unfold Text.trim at htrim
  rw [String.toList_ofList] at htrim
  rw [htrim] at hs
  refine ⟨before, sign, digits, after, hs, hbefore, hsign, hsome, hdigits, ?_, hafter⟩
  rw [hvalue, ← hw]
  exact (UInt64.toNat_ofNat_of_lt hfits).symm

/-- Digits alone spell what they make up. -/
theorem spells_digits_iff {ds : List Char} {w : UInt64} (nonempty : ds ≠ [])
    (digits : ∀ c ∈ ds, c.isDigit = true) :
    Spells (String.ofList ds) w ↔ Nat.ofDigitChars 10 ds 0 = w.toNat := by
  constructor
  · intro h
    have hclear : ∀ c ∈ ds, Text.isBlank c = false := fun c hc => isBlank_of_isDigit (digits c hc)
    have htrim : Text.trimChars ds = ds := by
      have htrim : Text.trimChars ([] ++ ds ++ []) = ds :=
        Text.trimChars_append nofun hclear nofun
      rwa [List.nil_append, List.append_nil] at htrim
    have hread := h.parseWord_trim
    unfold Text.trim at hread
    rw [String.toList_ofList, htrim] at hread
    obtain ⟨n, hn, rfl⟩ := map_eq_ok_iff.mp hread
    obtain ⟨sign, rest, hds, hsign, -, -, hvalue, hfits⟩ := spelled_of_parse (by decide) hn
    rw [String.toList_ofList] at hds
    have hword : (UInt64.ofNat n).toNat = n := UInt64.toNat_ofNat_of_lt hfits
    rw [hword, ← hvalue]
    rcases List.mem_cons.mp hsign with rfl | hsign
    · rw [hds, List.nil_append]
    · rw [List.mem_singleton.mp hsign] at hds
      rw [hds] at digits
      exact absurd (digits '+' List.mem_cons_self) (by decide)
  · intro h
    refine ⟨[], [], ds, [], ?_, nofun, List.mem_cons_self, nonempty, digits, h, nofun⟩
    rw [String.toList_ofList, List.nil_append, List.nil_append, List.append_nil]

theorem spells_toString (w : UInt64) : Spells (toString w.toNat) w := by
  refine ⟨[], [], Nat.toDigits 10 w.toNat, [], ?_, nofun, List.mem_cons_self,
    Nat.toDigits_ne_nil, isDigit_of_mem_toDigits, Nat.ofDigitChars_ten_toDigits, nofun⟩
  rw [toString_eq, String.toList_ofList, List.nil_append, List.nil_append, List.append_nil]

end Decimal

end ProposerBook
