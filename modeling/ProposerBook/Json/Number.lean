/-
What a number in a text stands for.

A number without fraction and exponent stands for itself where it fits sixty-four
bits (signed, below zero); every other number, and a negative zero, stands for a
floating-point number.  That one is worked out from the digits that fit sixty-four
bits and a power of ten, and a number too large for it is a fault of the text.
-/
import ProposerBook.Json.Tree
import ProposerBook.Bytes.Word

namespace ProposerBook

namespace Json

inductive Number
  | natural (n : Nat)
  | negative (n : Nat)
  | float (x : Float)

namespace Number

/-- Appends digits to a number as long as it stays below 2^64; the digits left over are those
that did not fit. -/
def absorb (n : Nat) : List Nat → Nat × List Nat
  | [] => (n, [])
  | d :: ds => if n * 10 + d < Word.bound then absorb (n * 10 + d) ds else (n, d :: ds)

/-- The number with these digits. -/
def ofDigits (ds : List Nat) : Nat := ds.foldl (fun n d => n * 10 + d) 0

/-- The power of ten with the exponent `k`, at most 308. -/
def tenTo (k : Nat) : Float := Float.ofScientific 1 false k

/-- `x` times the power of ten with the exponent `e`, or nothing where that is too large. -/
def scale : Nat → Float → Int → Option Float
  | 0, x, _ => some x
  | fuel + 1, x, e =>
    if e.natAbs ≤ 308 then
      if 0 ≤ e then
        let y := x * tenTo e.natAbs
        if y.isInf then none else some y
      else some (x / tenTo e.natAbs)
    else if x == 0 then some x
    else if 0 ≤ e then none
    else scale fuel (x / tenTo 308) (e + 308)

/-- The floating-point number of a literal. -/
def floatOf (l : Literal) : Except Fault Float :=
  let (n, dropped) := absorb 0 l.whole
  let (n, rest) := absorb n l.fraction
  let shift : Int := dropped.length - (l.fraction.length - rest.length : Nat)
  let magnitude : Option Float :=
    match l.exponent? with
    | none => scale 400 (Float.ofNat n) shift
    | some (down, ds) =>
      let e := ofDigits ds
      if 0x80000000 ≤ e then if n ≠ 0 ∧ !down then none else some 0.0
      else scale 400 (Float.ofNat n) (if down then shift - e else shift + e)
  match magnitude with
  | none => .error .malformed
  | some x => .ok (if l.negative then -x else x)

end Number

/-- What a literal stands for. -/
def Literal.number (l : Literal) : Except Fault Number :=
  let n := Number.ofDigits l.whole
  if !l.fraction.isEmpty || l.exponent?.isSome then (Number.floatOf l).map .float
  else if !l.negative && n < Word.bound then .ok (.natural n)
  else if l.negative && 0 < n && n ≤ Word.half then .ok (.negative n)
  else (Number.floatOf l).map .float

end Json

end ProposerBook
