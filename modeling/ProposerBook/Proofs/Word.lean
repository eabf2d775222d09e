/-
Eight bytes and a word are the same thing.

Every number below 2^64 is read back from its bytes; here is the other half.  Eight
bytes always make a number below 2^64, and writing that number yields these bytes.  So
a length in a snapshot can be taken for the number it is, and no two spellings of it
exist.
-/
import ProposerBook.Bytes.Word

namespace ProposerBook

namespace Word

theorem decode_lt_pow (b : Bytes) : decode b < Nat.pow 256 b.length := by
  induction b with
  | nil => decide
  | cons x xs ih =>
    have hx := x.toNat_lt
    have hpow : Nat.pow 256 (x :: xs).length = Nat.pow 256 xs.length * 256 := rfl
    have hdecode : decode (x :: xs) = x.toNat + 256 * decode xs := rfl
    rw [hpow, hdecode]
    omega

/-- The number that bytes make is written as these bytes. -/
theorem littleEndian_decode (b : Bytes) : littleEndian b.length (decode b) = b := by
  induction b with
  | nil => rfl
  | cons x xs ih =>
    have hx := x.toNat_lt
    have hdecode : decode (x :: xs) = x.toNat + 256 * decode xs := rfl
    have hlow : decode (x :: xs) % 256 = x.toNat := by omega
    have hhigh : decode (x :: xs) / 256 = decode xs := by omega
    show UInt8.ofNat (decode (x :: xs) % 256) :: littleEndian xs.length (decode (x :: xs) / 256) = _
    rw [hlow, hhigh, ih, UInt8.ofNat_toNat]

theorem decode_lt_bound {b : Bytes} (h : b.length = size) : decode b < bound := by
  have hlt := decode_lt_pow b
  rw [h] at hlt
  exact hlt

theorem encode_decode {b : Bytes} (h : b.length = size) : encode (decode b) = b := by
  rw [encode, ← h, littleEndian_decode]

end Word

end ProposerBook
