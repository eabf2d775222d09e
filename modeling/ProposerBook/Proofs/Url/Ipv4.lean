/-
IPv4 addresses are read back.

The parts of the text are plain numbers, without zeros in front that would make them octal, and
the last one is a number, so the text has to be read as an address.  Its four bytes are those of
the address.
-/
import Mathlib.Data.List.Basic
import ProposerBook.Proofs.Outcome
import ProposerBook.Proofs.Text.Split
import ProposerBook.Url.Ipv4

namespace ProposerBook

namespace Ipv4

/-! ### Numbers -/

theorem digit?_digitChar {base d : Nat} (hd : d < base) (small : base ≤ 16) :
    digit? base (Nat.digitChar d) = some d := by
  have hall : ∀ base < 17, ∀ d < base, digit? base (Nat.digitChar d) = some d := by decide
  exact hall base (by omega) d hd

theorem readFrom?_append (base n : Nat) (cs ds : List Char) :
    readFrom? base n (cs ++ ds) = (readFrom? base n cs).bind (readFrom? base · ds) := by
  induction cs generalizing n with
  | nil => rfl
  | cons c cs ih =>
    show ((digit? base c).bind fun d => readFrom? base (n * base + d) (cs ++ ds)) =
      ((digit? base c).bind fun d => readFrom? base (n * base + d) cs).bind _
    cases digit? base c with
    | none => rfl
    | some d => exact ih _

/-- **A number is read back from its digits.** -/
theorem readFrom?_toDigits {base : Nat} (several : 1 < base) (small : base ≤ 16) (n : Nat) :
    readFrom? base 0 (Nat.toDigits base n) = some n := by
  induction n using Nat.strongRecOn with
  | ind n ih =>
    by_cases hdigit : n < base
    · rw [Nat.toDigits_of_lt_base hdigit]
      show ((digit? base _).bind fun d => some (0 * base + d)) = _
      rw [digit?_digitChar hdigit small]
      simp
    · have hfewer : n / base < n := Nat.div_lt_self (by omega) several
      have hlast := Nat.mod_lt n (show 0 < base by omega)
      rw [Nat.toDigits_of_base_le several (by omega), readFrom?_append, ih _ hfewer]
      show ((digit? base _).bind fun d => some (n / base * base + d)) = _
      rw [digit?_digitChar hlast small, Option.bind_some, Nat.div_add_mod']

/-- Numbers are written in digits. -/
theorem exists_digitChar_of_mem_toDigits {base n : Nat} (several : 1 < base) {c : Char}
    (hc : c ∈ Nat.toDigits base n) : ∃ d < base, c = Nat.digitChar d := by
  induction n using Nat.strongRecOn with
  | ind n ih =>
    by_cases hdigit : n < base
    · rw [Nat.toDigits_of_lt_base hdigit, List.mem_singleton] at hc
      exact ⟨n, hdigit, hc⟩
    · rw [Nat.toDigits_of_base_le several (by omega)] at hc
      rcases List.mem_append.mp hc with hfront | hlast
      · exact ih _ (Nat.div_lt_self (by omega) several) hfront
      · exact ⟨_, Nat.mod_lt n (by omega), List.mem_singleton.mp hlast⟩

/-- Only zero has a zero in front. -/
theorem eq_nil_of_toDigits {n : Nat} {cs : List Char} (h : Nat.toDigits 10 n = '0' :: cs) :
    cs = [] := by
  induction n using Nat.strongRecOn generalizing cs with
  | ind n ih =>
    by_cases hdigit : n < 10
    · rw [Nat.toDigits_of_lt_base hdigit] at h
      exact (List.cons.inj h).2.symm
    · rw [Nat.toDigits_of_base_le (by decide) (by omega)] at h
      cases hfront : Nat.toDigits 10 (n / 10) with
      | nil => exact absurd hfront Nat.toDigits_ne_nil
      | cons c ds =>
        rw [hfront] at h
        obtain ⟨rfl, -⟩ := List.cons.inj h
        have hzero := readFrom?_toDigits (by decide) (by decide : 10 ≤ 16) (n / 10)
        rw [hfront, ih (n / 10) (Nat.div_lt_self (by omega) (by decide)) hfront] at hzero
        have hsmall : 0 = n / 10 := Option.some.inj hzero
        omega

theorem number?_toDigits (n : Nat) : number? (Nat.toDigits 10 n) = some n := by
  have hread := readFrom?_toDigits (by decide) (by decide : 10 ≤ 16) n
  have halone : ∀ cs, Nat.toDigits 10 n = '0' :: cs → cs = [] := fun _ => eq_nil_of_toDigits
  have hsome : Nat.toDigits 10 n ≠ [] := Nat.toDigits_ne_nil
  generalize Nat.toDigits 10 n = cs at *
  unfold number?
  split
  · exact absurd rfl hsome
  · cases halone _ rfl
  · cases halone _ rfl
  · cases halone _ rfl
  · exact hread

/-! ### Addresses -/

/-- The bytes that are written. -/
def bytes (a : Ipv4) : List Nat :=
  let n := a.bits.toNat
  [n / 0x1000000, n / 0x10000 % 256, n / 0x100 % 256, n % 256]

theorem toChars_eq (a : Ipv4) : a.toChars = ['.'].intercalate (a.bytes.map (Nat.toDigits 10)) := by
  have hdot : (toString ".").toList = ['.'] := rfl
  simp [toChars, bytes, Nat.toList_repr, List.intercalate_cons_cons, hdot]

theorem exists_digitChar_of_mem_bytes {a : Ipv4} {p : List Char}
    (hp : p ∈ a.bytes.map (Nat.toDigits 10)) {c : Char} (hc : c ∈ p) :
    ∃ d < 10, c = Nat.digitChar d := by
  obtain ⟨n, -, rfl⟩ := List.mem_map.mp hp
  exact exists_digitChar_of_mem_toDigits (by decide) hc

theorem splitOn_toChars (a : Ipv4) : a.toChars.splitOn '.' = a.bytes.map (Nat.toDigits 10) := by
  rw [toChars_eq]
  refine List.splitOn_intercalate '.' ?_ (List.cons_ne_nil _ _)
  have hdigits : ∀ d < 10, Nat.digitChar d ≠ '.' := by decide
  intro p hp hdot
  obtain ⟨d, hd, heq⟩ := exists_digitChar_of_mem_bytes hp hdot
  exact hdigits d hd heq.symm

/-- An address is written in dots and digits. -/
theorem mem_toChars {a : Ipv4} {c : Char} (hc : c ∈ a.toChars) :
    c = '.' ∨ ∃ d < 10, c = Nat.digitChar d := by
  rw [toChars_eq] at hc
  rcases Text.mem_intercalate hc with rfl | ⟨p, hp, hmem⟩
  · exact Or.inl rfl
  · exact Or.inr (exists_digitChar_of_mem_bytes hp hmem)

theorem parts_toChars (a : Ipv4) : parts a.toChars = a.bytes.map (Nat.toDigits 10) := by
  have hlast : (a.bytes.map (Nat.toDigits 10)).getLast? ≠ some [] := by
    intro h
    exact Nat.toDigits_ne_nil (Option.some.inj h)
  unfold parts
  dsimp only
  rw [splitOn_toChars, if_neg hlast]

/-- The text has to be read as an address. -/
theorem endsInNumber_toChars (a : Ipv4) : endsInNumber a.toChars = true := by
  have hlast : (a.bytes.map (Nat.toDigits 10)).getLast? =
      some (Nat.toDigits 10 (a.bits.toNat % 256)) := rfl
  unfold endsInNumber
  rw [parts_toChars, hlast]
  dsimp only
  rw [number?_toDigits]
  simp

/-- **An address is read back.** -/
theorem parse?_toChars (a : Ipv4) : parse? a.toChars = some a := by
  have hnumbers : (a.bytes.map (Nat.toDigits 10)).mapM number? = some a.bytes := by
    rw [mapM_eq_some_iff, List.forall₂_map_left_iff, List.forall₂_same]
    exact fun n _ => number?_toDigits n
  have hbits := a.bits.toNat_lt
  have hfill : fill? 4 a.bytes = some a.bits.toNat := by
    unfold bytes
    dsimp only
    generalize a.bits.toNat = n at *
    have hbytes : n / 0x1000000 < 256 ∧ n / 0x10000 % 256 < 256 ∧ n / 0x100 % 256 < 256 ∧
        n % 256 < Nat.pow 256 1 := by
      have hpower : Nat.pow 256 1 = 256 := rfl
      omega
    obtain ⟨ha, hb, hc, hd⟩ := hbytes
    simp only [fill?, if_pos ha, if_pos hb, if_pos hc, if_pos hd, Option.map_some,
      Option.some.injEq]
    have hpowers : Nat.pow 256 1 = 256 ∧ Nat.pow 256 2 = 65536 ∧ Nat.pow 256 3 = 16777216 := by
      decide
    rw [hpowers.1, hpowers.2.1, hpowers.2.2]
    omega
  unfold parse?
  rw [parts_toChars, hnumbers]
  show (fill? 4 a.bytes).bind (fun n => some ⟨UInt32.ofNat n⟩) = some a
  rw [hfill, Option.bind_some, UInt32.ofNat_toNat]

end Ipv4

end ProposerBook
