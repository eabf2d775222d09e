/-
Sixty-four bit words as eight bytes, the low byte first.
-/
import ProposerBook.Bytes.Basic

namespace ProposerBook

namespace Word

/-- Two to the 64th, which every word is below. -/
def bound : Nat := 0x10000000000000000

/-- Two to the 63rd. -/
def half : Nat := 0x8000000000000000

/-- How many bytes a word takes. -/
def size : Nat := 8

/-- The `k` low bytes of `n`, the low byte first. -/
def littleEndian : Nat → Nat → Bytes
  | 0, _ => []
  | k + 1, n => UInt8.ofNat (n % 256) :: littleEndian k (n / 256)

/-- The eight bytes of a number below 2^64. -/
def encode (n : Nat) : Bytes := littleEndian size n

/-- The number whose bytes are `b`, the low byte first. -/
def decode (b : Bytes) : Nat := b.foldr (fun x n => x.toNat + 256 * n) 0

@[simp] theorem length_littleEndian (k n : Nat) : (littleEndian k n).length = k := by
  induction k generalizing n with
  | zero => rfl
  | succ k ih => simp [littleEndian, ih]

@[simp] theorem length_encode (n : Nat) : (encode n).length = size := length_littleEndian _ _

theorem decode_littleEndian (k n : Nat) : decode (littleEndian k n) = n % Nat.pow 256 k := by
  induction k generalizing n with
  | zero => simp [littleEndian, decode, Nat.mod_one]
  | succ k ih =>
    have low : (UInt8.ofNat (n % 256)).toNat = n % 256 :=
      UInt8.toNat_ofNat_of_lt' (Nat.mod_lt _ (by decide))
    calc decode (littleEndian (k + 1) n)
        = (UInt8.ofNat (n % 256)).toNat + 256 * decode (littleEndian k (n / 256)) := rfl
      _ = n % 256 + 256 * (n / 256 % Nat.pow 256 k) := by rw [low, ih]
      _ = n % Nat.pow 256 (k + 1) := by
        rw [show Nat.pow 256 (k + 1) = 256 * Nat.pow 256 k from Nat.mul_comm _ _, Nat.mod_mul]

/-- A word below 2^64 is read back. -/
theorem decode_encode {n : Nat} (h : n < bound) : decode (encode n) = n := by
  rw [encode, decode_littleEndian]
  exact Nat.mod_eq_of_lt h

end Word

end ProposerBook
