/-
Unsigned decimal numbers below 2^64 as text.

The text of a number is a run of ASCII digits, and a plus sign may stand before
it.  Leading zeros are no fault.  A text is refused because it is empty, because
some character is no digit, or because the number does not fit; of the last two the
one met first, reading from the left, is named.
-/
import ProposerBook.Bytes.Word

namespace ProposerBook

namespace Decimal

inductive ParseError
  | empty
  | invalidDigit
  | overflow
  deriving DecidableEq, Repr

def ParseError.message : ParseError → String
  | .empty => "cannot parse integer from empty string"
  | .invalidDigit => "invalid digit found in string"
  | .overflow => "number too large to fit in target type"

/-- The value of an ASCII digit. -/
def digit? (c : Char) : Option Nat :=
  if '0' ≤ c ∧ c ≤ '9' then some (c.toNat - '0'.toNat) else none

/-- Reads digits after those that make up `n`, keeping below `bound`. -/
def readDigits (bound : Nat) (n : Nat) : List Char → Except ParseError Nat
  | [] => .ok n
  | c :: cs =>
    if bound ≤ n * 10 then
      -- the number no longer fits whatever digit follows, but a bad digit is named before that
      match digit? c with
      | none => .error .invalidDigit
      | some _ => .error .overflow
    else
      match digit? c with
      | none => .error .invalidDigit
      | some d => if bound ≤ n * 10 + d then .error .overflow else readDigits bound (n * 10 + d) cs

/-- The number below `bound` that a text stands for. -/
def parse (bound : Nat) (s : String) : Except ParseError Nat :=
  match s.toList with
  | [] => .error .empty
  | '+' :: c :: cs => readDigits bound 0 (c :: cs)
  | cs => readDigits bound 0 cs

/-- The word that a text stands for. -/
def parseWord (s : String) : Except ParseError UInt64 :=
  (parse Word.bound s).map UInt64.ofNat

end Decimal

end ProposerBook
