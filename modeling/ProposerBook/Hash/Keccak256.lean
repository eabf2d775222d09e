/-
Keccak-256 of a byte list: the sponge with a rate of 136 bytes, and padding by a
one bit, zeros and a one bit.

The state is twenty-five words of sixty-four bits, in rows of five: the word at
column `x` and row `y` stands at `x + 5 * y`.
-/
import ProposerBook.Bytes.Basic

namespace ProposerBook

namespace Keccak256

abbrev State := Vector UInt64 25

/-- How many bytes a block takes. -/
def rate : Nat := 136

/-! ### Round constants

They come from a register of eight bits that is shifted once for each bit taken from it.  A round
takes seven bits, and the bit taken `j`-th stands at the place `2 ^ j - 1` of its constant. -/

/-- Shifts the register; a bit that leaves it comes back in four places. -/
def shift (register : UInt8) : UInt8 :=
  if register < 128 then register <<< 1 else (register <<< 1) ^^^ 0x71

/-- The bits that a round takes from the register, from the `j`-th on, in their places. -/
def roundConstant (register : UInt8) : (left j : Nat) → UInt64
  | 0, _ => 0
  | left + 1, j =>
    let bit : UInt64 := if register % 2 = 1 then 1 <<< UInt64.ofNat (Nat.pow 2 j - 1) else 0
    bit ||| roundConstant (shift register) left (j + 1)

def roundConstantsFrom (register : UInt8) : (rounds : Nat) → List UInt64
  | 0 => []
  | rounds + 1 =>
    roundConstant register 7 0 :: roundConstantsFrom (Nat.repeat shift 7 register) rounds

/-- What is worked into the first word of the state in each round. -/
def roundConstants : List UInt64 := roundConstantsFrom 1 24

/-! ### Rounds -/

/-- By how much each word is turned. -/
def offsets : Vector UInt64 25 := #v[
  0, 1, 62, 28, 27,
  36, 44, 6, 55, 20,
  3, 10, 43, 25, 39,
  41, 45, 15, 21, 8,
  18, 2, 61, 56, 14]

def rotl (x n : UInt64) : UInt64 := if n = 0 then x else (x <<< n) ||| (x >>> (64 - n))

/-- The word at column `x` and row `y`, both counted modulo five. -/
def lane (s : State) (x y : Nat) : UInt64 :=
  s.get ⟨x % 5 + 5 * (y % 5), by omega⟩

/-- Adds to every word the parities of two neighbouring columns. -/
def theta (s : State) : State :=
  let parity (x : Nat) :=
    lane s x 0 ^^^ lane s x 1 ^^^ lane s x 2 ^^^ lane s x 3 ^^^ lane s x 4
  let d : Vector UInt64 5 := Vector.ofFn fun x => parity (x + 4) ^^^ rotl (parity (x + 1)) 1
  Vector.ofFn fun i => s[i] ^^^ d.get ⟨i.val % 5, by omega⟩

/-- Turns each word by its own amount and moves it: column `x`, row `y` to column `y`, row
`2 x + 3 y`. -/
def rhoPi (s : State) : State :=
  Vector.ofFn fun i =>
    let u := i.val % 5
    let v := i.val / 5
    -- the word that arrives at column `u`, row `v` comes from column `u + 3 v`, row `u`
    rotl (lane s (u + 3 * v) u) (lane offsets (u + 3 * v) u)

/-- The one step that is not linear, along the rows. -/
def chi (s : State) : State :=
  Vector.ofFn fun i =>
    let x := i.val % 5
    let y := i.val / 5
    s[i] ^^^ (~~~lane s (x + 1) y &&& lane s (x + 2) y)

def round (s : State) (rc : UInt64) : State :=
  let t := chi (rhoPi (theta s))
  t.set 0 (t[0] ^^^ rc)

def permute (s : State) : State := roundConstants.foldl round s

/-! ### The sponge -/

/-- The word whose bytes are `b`, the low byte first. -/
def word (b : Bytes) : UInt64 := b.foldr (fun x n => x.toUInt64 ||| (n <<< 8)) 0

/-- Works one block of `rate` bytes into the state. -/
def absorbBlock (s : State) (block : Bytes) : State :=
  permute (Vector.ofFn fun i => s[i] ^^^ word ((block.drop (8 * i.val)).take 8))

/-- The message with its padding: a whole number of blocks. -/
def pad (m : Bytes) : Bytes :=
  let gap := rate - m.length % rate
  if gap = 1 then m ++ [0x81] else m ++ 0x01 :: (List.replicate (gap - 2) 0 ++ [0x80])

def absorb : Nat → State → Bytes → State
  | 0, s, _ => s
  | n + 1, s, m => absorb n (absorbBlock s (m.take rate)) (m.drop rate)

/-- The thirty-two bytes of the hash. -/
def hash (m : Bytes) : Bytes :=
  let p := pad m
  let s := absorb (p.length / rate) (Vector.replicate 25 0) p
  (s.toList.take 4).flatMap fun w =>
    (List.range 8).map fun i => (w >>> (UInt64.ofNat (8 * i))).toUInt8

end Keccak256

end ProposerBook
