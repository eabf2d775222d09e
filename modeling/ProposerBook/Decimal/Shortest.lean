/-
The shortest decimal text of a binary floating-point number.

A number is m · 2^q with m below 2^53.  The reals that round to it form an interval
around it, whose ends belong to it when m is even.  Of the decimal fractions with
one digit, two digits and so on, the first grid that has a point in the interval is
taken, and of its points there the one nearest to the number.  All of this is exact
arithmetic on natural numbers.
-/
import ProposerBook.Bytes.Word

namespace ProposerBook

namespace Shortest

/-- The number m · 2^q. -/
structure Binary where
  mantissa : Nat
  exponent : Int

/-- Two to the 52nd: the mantissa of a normal number is not below it. -/
def leastNormal : Nat := 0x10000000000000

/-- The parts of a finite positive number. -/
def Binary.ofBits (bits : UInt64) : Binary :=
  let fraction := bits.toNat % leastNormal
  let biased : Nat := bits.toNat / leastNormal % 2048
  if biased = 0 then ⟨fraction, -1074⟩ else ⟨fraction + leastNormal, (biased : Int) - 1075⟩

/-- A quotient of natural numbers. -/
structure Ratio where
  num : Nat
  den : Nat

/-- The number n · 2^q. -/
def Ratio.scale (n : Nat) (q : Int) : Ratio :=
  if 0 ≤ q then ⟨n * Nat.pow 2 q.toNat, 1⟩ else ⟨n, Nat.pow 2 (-q).toNat⟩

/-- How `a` compares with `c · 10^e`. -/
def Ratio.compareTo (a : Ratio) (c : Nat) (e : Int) : Ordering :=
  if 0 ≤ e then compare a.num (c * Nat.pow 10 e.toNat * a.den)
  else compare (a.num * Nat.pow 10 (-e).toNat) (c * a.den)

/-- The whole part of `a / 10^e`. -/
def Ratio.floorAt (a : Ratio) (e : Int) : Nat :=
  if 0 ≤ e then a.num / (a.den * Nat.pow 10 e.toNat) else a.num * Nat.pow 10 (-e).toNat / a.den

/-- The greatest `e` from `start` downwards with `10^e ≤ a`. -/
def Ratio.magnitude (a : Ratio) : Nat → Int → Int
  | 0, e => e
  | fuel + 1, e => if a.compareTo 1 e = .lt then a.magnitude fuel (e - 1) else e

/-- The digits of a number and the exponent of the last of them. -/
structure Digits where
  value : Nat
  exponent : Int

/-- The nearest point of the grid `10^e` in the interval around the number, if there is one. -/
def onGrid (b : Binary) (e : Int) : Option Digits :=
  let q := b.exponent - 2
  let gapBelow := if b.mantissa = leastNormal ∧ -1074 < b.exponent then 1 else 2
  let low := Ratio.scale (4 * b.mantissa - gapBelow) q
  let high := Ratio.scale (4 * b.mantissa + 2) q
  let value := Ratio.scale (4 * b.mantissa) q
  let closed := b.mantissa % 2 = 0
  let inside (c : Nat) : Bool :=
    (low.compareTo c e = .lt ∨ closed ∧ low.compareTo c e = .eq) ∧
      (high.compareTo c e = .gt ∨ closed ∧ high.compareTo c e = .eq)
  let below := value.floorAt e
  let above := below + 1
  -- twice the number against the sum of its two neighbours tells which is nearer
  let nearBelow := match (Ratio.scale (8 * b.mantissa) q).compareTo (below + above) e with
    | .lt => true
    | .eq => below % 2 == 0
    | .gt => false
  if inside below && (nearBelow || !inside above) then some ⟨below, e⟩
  else if inside above then some ⟨above, e⟩
  else none

/-- Tries grids of one digit, two digits and so on. -/
def search (b : Binary) (top : Int) : Nat → Nat → Option Digits
  | 0, _ => none
  | fuel + 1, n => (onGrid b (top - n)).or (search b top fuel (n + 1))

/-- The shortest digits of a finite positive number. -/
def digits (bits : UInt64) : Digits :=
  let b := Binary.ofBits bits
  let value := Ratio.scale b.mantissa b.exponent
  let top := value.magnitude 700 309
  (search b top 18 0).getD ⟨0, 0⟩

/-- Drops zeros at the end. -/
def Digits.strip : Nat → Digits → Digits
  | 0, d => d
  | fuel + 1, d =>
    if d.value % 10 = 0 ∧ d.value ≠ 0 then Digits.strip fuel ⟨d.value / 10, d.exponent + 1⟩ else d

/-- Writes a number: positional from 10^-5 up to 10^16, with a digit after the point, and beyond
with an exponent and its sign. -/
def layout (d : Digits) : String :=
  let ds := (toString d.value).toList
  let point : Int := ds.length + d.exponent
  if 0 ≤ d.exponent ∧ point ≤ 16 then
    String.ofList (ds ++ List.replicate d.exponent.toNat '0') ++ ".0"
  else if 0 < point ∧ point ≤ 16 then
    String.ofList (ds.take point.toNat ++ '.' :: ds.drop point.toNat)
  else if -5 < point ∧ point ≤ 0 then
    "0." ++ String.ofList (List.replicate (-point).toNat '0' ++ ds)
  else
    let exponent := point - 1
    let sign := if 0 ≤ exponent then "+" else "-"
    let lead := match ds with
      | [] => ""
      | [c] => c.toString
      | c :: cs => c.toString ++ "." ++ String.ofList cs
    lead ++ "e" ++ sign ++ toString exponent.natAbs

/-- The text of a finite number. -/
def text (x : Float) : String :=
  let bits := x.toBits
  let sign := if Word.half ≤ bits.toNat then "-" else ""
  let magnitude := UInt64.ofNat (bits.toNat % Word.half)
  if magnitude = 0 then sign ++ "0.0"
  else sign ++ layout ((digits magnitude).strip 20)

end Shortest

end ProposerBook
