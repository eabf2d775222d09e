/-
Account addresses.

An address is twenty bytes, and addresses are ordered by their bytes.  As text it
is forty hexadecimal digits.  Reading takes digits of either case after an optional
`0x` or `0X` and never looks at the case; writing chooses the case of each letter by
the hash of the lower-case digits, so that a mistyped address is noticed by those
who look.
-/
import ProposerBook.Bytes.Hex
import ProposerBook.Hash.Keccak256
import ProposerBook.Text.Quoted

namespace ProposerBook

/-- Twenty bytes that name an account. -/
structure Address where
  bytes : Bytes
  length_eq : bytes.length = 20
  deriving DecidableEq

namespace Address

/-- How many bytes an address takes. -/
def size : Nat := 20

instance : Repr Address := ⟨fun a _ => Hex.encode a.bytes⟩

instance : Inhabited Address := ⟨List.replicate 20 0, by simp⟩

instance : Ord Address := ⟨fun a b => compare a.bytes b.bytes⟩

instance : Std.TransOrd Address where
  eq_swap {a b} := @Std.OrientedCmp.eq_swap Bytes compare _ a.bytes b.bytes
  isLE_trans {a b c} := @Std.TransCmp.isLE_trans Bytes compare _ a.bytes b.bytes c.bytes

instance : Std.LawfulEqOrd Address where
  eq_of_compare {a b} h := by
    have h : a.bytes = b.bytes := @Std.LawfulEqCmp.eq_of_compare Bytes compare _ _ _ h
    cases a
    cases b
    simpa using h

/-- The address of twenty bytes. -/
def ofBytes? (b : Bytes) : Option Address :=
  if h : b.length = 20 then some ⟨b, h⟩ else none

/-! ### Reading

The faults are looked for in this order: an odd number of digits, a number other
than forty, a character that is no digit.  All are counted over the bytes of the
text after its `0x`, so a character beyond ASCII counts for as many as it has, and
is named by the first of them.
-/

inductive ParseError
  | oddDigits
  | wrongLength
  | invalidDigit (byte : UInt8) (index : Nat)
  deriving DecidableEq, Repr

def ParseError.message : ParseError → String
  | .oddDigits => "odd number of digits"
  | .wrongLength => "invalid string length"
  | .invalidDigit b i => s!"invalid character {Text.quotedChar (Char.ofUInt8 b)} at position {i}"

/-- Drops a leading `0x` or `0X`. -/
def dropPrefix : List Char → List Char
  | '0' :: 'x' :: cs => cs
  | '0' :: 'X' :: cs => cs
  | cs => cs

/-- The first byte that is no digit, with its place. -/
def firstNonDigit (start : Nat) : Bytes → Option (UInt8 × Nat)
  | [] => none
  | b :: bs =>
    if (Hex.digitValue? (Char.ofUInt8 b)).isSome then firstNonDigit (start + 1) bs
    else some (b, start)

/-- Reads an address. -/
def parse (s : String) : Except ParseError Address :=
  let digits := Bytes.ofString (String.ofList (dropPrefix s.toList))
  if digits.length % 2 = 1 then .error .oddDigits
  else if digits.length ≠ 2 * size then .error .wrongLength
  else
    match firstNonDigit 0 digits with
    | some (b, i) => .error (.invalidDigit b i)
    | none =>
      match (Hex.decodeChars? (digits.map Char.ofUInt8)).bind ofBytes? with
      | some a => .ok a
      | none => .error .wrongLength

/-! ### Writing -/

/-- Whether the letter at place `i` is a capital: the half byte of the hash at that place is at
least eight. -/
def capitalAt (hash : Bytes) (i : Nat) : Bool :=
  let b := (hash.getD (i / 2) 0).toNat
  8 ≤ (if i % 2 = 0 then b / 16 else b % 16)

/-- The digits of an address, each letter in the case that the hash of the lower-case digits
gives it. -/
def checksumDigits (a : Address) : List Char :=
  let digits := Hex.encodeChars a.bytes
  let hash := Keccak256.hash (Bytes.ofString (String.ofList digits))
  digits.mapIdx fun i c => if capitalAt hash i then c.toUpper else c

/-- The text of an address. -/
def toText (a : Address) : String := String.ofList ('0' :: 'x' :: checksumDigits a)

instance : ToString Address := ⟨toText⟩

end Address

end ProposerBook
