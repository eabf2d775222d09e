/-
Hexadecimal text.

A byte is written as two lower-case digits, the high half first.  Reading takes
digits of either case, and only in pairs.
-/
import ProposerBook.Bytes.Basic

namespace ProposerBook

namespace Hex

/-- The digit for a number below sixteen. -/
def digit (n : Nat) : Char :=
  if n < 10 then Char.ofNat ('0'.toNat + n) else Char.ofNat ('a'.toNat + (n - 10))

/-- The number that a digit of either case stands for. -/
def digitValue? (c : Char) : Option Nat :=
  if '0' ≤ c ∧ c ≤ '9' then some (c.toNat - '0'.toNat)
  else if 'a' ≤ c ∧ c ≤ 'f' then some (c.toNat - 'a'.toNat + 10)
  else if 'A' ≤ c ∧ c ≤ 'F' then some (c.toNat - 'A'.toNat + 10)
  else none

/-- The two digits of a byte. -/
def digits (b : UInt8) : List Char := [digit (b.toNat / 16), digit (b.toNat % 16)]

def encodeChars (b : Bytes) : List Char := b.flatMap digits

/-- The lower-case text of a byte list. -/
def encode (b : Bytes) : String := String.ofList (encodeChars b)

def decodeChars? : List Char → Option Bytes
  | [] => some []
  | [_] => none
  | hi :: lo :: rest => do
    let h ← digitValue? hi
    let l ← digitValue? lo
    let bs ← decodeChars? rest
    return UInt8.ofNat (16 * h + l) :: bs

/-- The bytes that a text of digit pairs stands for. -/
def decode? (s : String) : Option Bytes := decodeChars? s.toList

theorem digitValue?_digit {n : Nat} (h : n < 16) : digitValue? (digit n) = some n := by
  have : ∀ n : Fin 16, digitValue? (digit n) = some n.val := by decide
  exact this ⟨n, h⟩

/-- A written byte list is read back. -/
theorem decodeChars?_encodeChars (b : Bytes) : decodeChars? (encodeChars b) = some b := by
  induction b with
  | nil => rfl
  | cons x xs ih =>
    have hx := x.toNat_lt
    have hi : digitValue? (digit (x.toNat / 16)) = some (x.toNat / 16) :=
      digitValue?_digit (by omega)
    have lo : digitValue? (digit (x.toNat % 16)) = some (x.toNat % 16) :=
      digitValue?_digit (by omega)
    have hsum : UInt8.ofNat (16 * (x.toNat / 16) + x.toNat % 16) = x := by
      rw [Nat.div_add_mod]; simp
    simp only [encodeChars, List.flatMap_cons, digits, List.cons_append, List.nil_append,
      decodeChars?, hi, lo, Option.bind_eq_bind, Option.bind_some]
    rw [show List.flatMap digits xs = encodeChars xs from rfl, ih]
    simp [hsum]

end Hex

end ProposerBook
