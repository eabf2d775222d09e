/-
Punycode: any characters, written with ASCII characters.

A text is its ASCII characters, and besides them a list of insertions that put the other
characters back, in ascending order of the characters, and of equal ones from the left.
What is written is the ASCII characters and, behind a hyphen, how far each insertion is
from the one before it, where one step goes to the next place and from the last place
to the first place of the next character.

The distances are written in digits of thirty-six, least significant first.  A digit
below a threshold ends its number, and the thresholds follow the size of the distances
written so far.
-/

namespace ProposerBook

namespace Punycode

/-! ### Distances between insertions -/

/-- The first character that has to be inserted. -/
def firstInserted : Nat := 0x80

/-- What is inserted and where, for each character beyond ASCII: when its turn comes, the
characters before it that are not greater are in their places. -/
def insertions (cs : List Char) : List (Nat × Nat) :=
  let beyond := (cs.map Char.toNat).zipIdx.filter fun (n, _) => firstInserted ≤ n
  (beyond.mergeSort fun x y => x.1 ≤ y.1).map fun (n, i) =>
    (n, (cs.take i).countP fun c => c.toNat ≤ n)

/-- The distances of insertions into a text of `size` characters, the last one stopped at the
character `n` and the place `i`. -/
def distances (n i size : Nat) : List (Nat × Nat) → List Nat
  | [] => []
  | (m, p) :: rest =>
    ((m - n) * (size + 1) + p - i) :: distances m (p + 1) (size + 1) rest

/-- Makes the insertions that lie at these distances. -/
def insertAt (n i : Nat) (cs : List Char) : List Nat → Option (List Char)
  | [] => some cs
  | d :: ds =>
    let m := n + (i + d) / (cs.length + 1)
    let p := (i + d) % (cs.length + 1)
    if m.isValidChar then insertAt m (p + 1) (cs.take p ++ Char.ofNat m :: cs.drop p) ds else none

/-! ### Numbers -/

def digit (n : Nat) : Char :=
  if n < 26 then Char.ofNat ('a'.toNat + n) else Char.ofNat ('0'.toNat + (n - 26))

def digitValue? (c : Char) : Option Nat :=
  if 'a' ≤ c ∧ c ≤ 'z' then some (c.toNat - 'a'.toNat)
  else if 'A' ≤ c ∧ c ≤ 'Z' then some (c.toNat - 'A'.toNat)
  else if '0' ≤ c ∧ c ≤ '9' then some (c.toNat - '0'.toNat + 26)
  else none

/-- The threshold of the digit at `36 * (k + 1)`, `place` being that number. -/
def threshold (bias place : Nat) : Nat := max 1 (min 26 (place - bias))

theorem threshold_bounds (bias place : Nat) :
    1 ≤ threshold bias place ∧ threshold bias place ≤ 26 := by
  unfold threshold
  omega

/-- The digits of a distance, from `place` on. -/
def writeNumber (bias place q : Nat) : List Char :=
  let t := threshold bias place
  if q < t then [digit q]
  else digit (t + (q - t) % (36 - t)) :: writeNumber bias (place + 36) ((q - t) / (36 - t))
termination_by q
decreasing_by
  have h := threshold_bounds bias place
  exact Nat.lt_of_le_of_lt (Nat.div_le_self _ _) (by omega)

/-- Reads a distance whose digits so far make up `sum`, the next one counting `weight`. -/
def readNumber (bias place weight sum : Nat) : List Char → Option (Nat × List Char)
  | [] => none
  | c :: cs =>
    match digitValue? c with
    | none => none
    | some d =>
      let t := threshold bias place
      if d < t then some (sum + d * weight, cs)
      else readNumber bias (place + 36) (weight * (36 - t)) (sum + d * weight) cs

/-- Divides by 35 until little is left, and counts 36 for each time. -/
def shrink (d : Nat) : Nat × Nat :=
  if 455 < d then let (d, k) := shrink (d / 35); (d, k + 36) else (d, 0)
termination_by d
decreasing_by exact Nat.div_lt_self (by omega) (by omega)

/-- The bias after a distance which made the text grow to `size` characters. -/
def adapt (d size : Nat) (isFirst : Bool) : Nat :=
  let d := if isFirst then d / 700 else d / 2
  let (d, k) := shrink (d + d / size)
  k + 36 * d / (d + 38)

def firstBias : Nat := 72

def writeNumbers (bias size : Nat) (isFirst : Bool) : List Nat → List Char
  | [] => []
  | d :: ds =>
    writeNumber bias 36 d ++ writeNumbers (adapt d (size + 1) isFirst) (size + 1) false ds

/-- Reads numbers to the end of the text, of which each takes at least one of `fuel` digits. -/
def readNumbers :
    (fuel : Nat) → (bias size : Nat) → (isFirst : Bool) → List Char → Option (List Nat)
  | _, _, _, _, [] => some []
  | 0, _, _, _, _ => none
  | fuel + 1, bias, size, isFirst, cs => do
    let (d, cs) ← readNumber bias 36 1 0 cs
    let ds ← readNumbers fuel (adapt d (size + 1) isFirst) (size + 1) false cs
    return d :: ds

/-! ### Texts -/

def encode (cs : List Char) : List Char :=
  let basic := cs.filter fun c => c.toNat < firstInserted
  let gaps := distances firstInserted 0 basic.length (insertions cs)
  basic ++ (if basic.isEmpty then [] else ['-']) ++ writeNumbers firstBias basic.length true gaps

/-- The text that is written so.  The last hyphen ends its ASCII characters, of which there has to
be one before it. -/
def decode? (cs : List Char) : Option (List Char) := do
  let tail := (cs.reverse.takeWhile (· != '-')).reverse
  let basic := (cs.take (cs.length - tail.length)).dropLast
  if cs.head? = some '-' ∧ basic.isEmpty then none
  else
    let ds ← readNumbers tail.length firstBias basic.length true tail
    insertAt firstInserted 0 basic ds

end Punycode

end ProposerBook
