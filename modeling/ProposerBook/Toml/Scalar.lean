/-
Numbers and moments.

What they are worth is not kept, since nothing that is read from a TOML text here is a
number or a moment; but a text in which one of them is badly formed, or too large to
be held, is refused as a whole.
-/
import ProposerBook.Toml.Gap
import ProposerBook.Bytes.Hex
import ProposerBook.Bytes.Word

namespace ProposerBook

namespace Toml

/-! ### Digits

Single underscores may stand between digits. -/

/-- The digits below `radix` that follow one. -/
def moreDigits (radix : Nat) : Reader (List Nat)
  | '_' :: c :: cs =>
    match (Hex.digitValue? c).filter (· < radix) with
    | some d => (moreDigits radix cs).map fun (ds, rest) => (d :: ds, rest)
    | none => none
  | c :: cs =>
    match (Hex.digitValue? c).filter (· < radix) with
    | some d => (moreDigits radix cs).map fun (ds, rest) => (d :: ds, rest)
    | none => if c = '_' then none else some ([], c :: cs)
  | [] => some ([], [])

/-- One digit or more. -/
def digits (radix : Nat) : Reader (List Nat)
  | c :: cs =>
    match (Hex.digitValue? c).filter (· < radix) with
    | some d => (moreDigits radix cs).map fun (ds, rest) => (d :: ds, rest)
    | none => none
  | [] => none

/-- The number with these digits. -/
def numberOf (radix : Nat) (ds : List Nat) : Nat := ds.foldl (fun n d => radix * n + d) 0

/-! ### Numbers -/

/-- The least number that is rounded up to two to the 1024th, beyond the binary numbers of
sixty-four bits. -/
def floatBound : Nat := Nat.pow 2 1024 - Nat.pow 2 970

/-- Whether the number of these digits times the power of ten with the exponent `e` is too large.
Numbers of far more or far fewer than 309 digits before the point are told apart by that count. -/
def overflows (ds : List Nat) (e : Int) : Bool :=
  let ds := ds.dropWhile (· == 0)
  let n := numberOf 10 ds
  let places : Int := ds.length + e
  if ds.isEmpty || places < 309 then false
  else if 309 < places then true
  else if 0 ≤ e then floatBound ≤ n * Nat.pow 10 e.toNat
  else floatBound * Nat.pow 10 (-e).toNat ≤ n

/-- The digits of a decimal number before its point: a zero stands alone. -/
def wholeDigits : Reader (List Nat)
  | '0' :: cs => some ([0], cs)
  | cs => digits 10 cs

/-- The exponent, if there is one. -/
def exponent : Reader (Option Int)
  | c :: cs =>
    if c = 'e' ∨ c = 'E' then
      let (negative, cs) := match cs with
        | '+' :: cs => (false, cs)
        | '-' :: cs => (true, cs)
        | cs => (false, cs)
      (digits 10 cs).map fun (ds, rest) =>
        let n := numberOf 10 ds
        (some (if negative then -n else n), rest)
    else some (none, c :: cs)
  | [] => some (none, [])

/-- The digits behind the point, if there is one. -/
def fraction : Reader (Option (List Nat))
  | '.' :: cs => (digits 10 cs).map fun (ds, rest) => (some ds, rest)
  | cs => some (none, cs)

/-- The rest after a decimal number without its sign.  A whole number has to fit sixty-four bits,
and another one must not be too large above zero. -/
def decimal (negative : Bool) (cs : List Char) : Option (List Char) := do
  let (whole, cs) ← wholeDigits cs
  let (fraction?, cs) ← fraction cs
  let (exponent?, cs) ← exponent cs
  let small :=
    if fraction?.isNone && exponent?.isNone then
      let n := numberOf 10 whole
      n < Word.half || (negative && n == Word.half)
    else
      let ds := fraction?.getD []
      negative || !overflows (whole ++ ds) (exponent?.getD 0 - ds.length)
  if small then some cs else none

/-- The rest after a number in another radix. -/
def inRadix (radix : Nat) (cs : List Char) : Option (List Char) := do
  let (ds, cs) ← digits radix cs
  if numberOf radix ds < Word.half then some cs else none

/-- The rest after a number behind its sign, which may be one of the two words. -/
def signless (negative : Bool) : List Char → Option (List Char)
  | 'i' :: 'n' :: 'f' :: cs => some cs
  | 'n' :: 'a' :: 'n' :: cs => some cs
  | cs => decimal negative cs

/-- The rest after a number. -/
def number : List Char → Option (List Char)
  | '0' :: 'x' :: cs => inRadix 16 cs
  | '0' :: 'o' :: cs => inRadix 8 cs
  | '0' :: 'b' :: cs => inRadix 2 cs
  | '+' :: cs => signless false cs
  | '-' :: cs => signless true cs
  | cs => signless false cs

/-! ### Moments

A date, a time of day, or both; the latter may tell how far its clock is off. -/

/-- A number of exactly `n` digits, from `least` to `most`. -/
def fixedDigits (n least most : Nat) : Reader Nat := fun cs => do
  let ds ← (cs.take n).mapM fun c => (Hex.digitValue? c).filter (· < 10)
  let k := numberOf 10 ds
  if ds.length = n ∧ least ≤ k ∧ k ≤ most then some (k, cs.drop n) else none

/-- The rest after the sign `c`. -/
def sign (c : Char) : List Char → Option (List Char)
  | d :: cs => if c = d then some cs else none
  | [] => none

def daysIn (year month : Nat) : Nat :=
  if month = 2 then
    if year % 4 = 0 ∧ (year % 100 ≠ 0 ∨ year % 400 = 0) then 29 else 28
  else if month = 4 ∨ month = 6 ∨ month = 9 ∨ month = 11 then 30
  else 31

def date (cs : List Char) : Option (List Char) := do
  let (year, cs) ← fixedDigits 4 0 9999 cs
  let cs ← sign '-' cs
  let (month, cs) ← fixedDigits 2 1 12 cs
  let cs ← sign '-' cs
  let (_, cs) ← fixedDigits 2 1 (daysIn year month) cs
  return cs

def hourAndMinute (cs : List Char) : Option (List Char) := do
  let (_, cs) ← fixedDigits 2 0 23 cs
  let cs ← sign ':' cs
  let (_, cs) ← fixedDigits 2 0 59 cs
  return cs

def isDigit (c : Char) : Bool := '0' ≤ c && c ≤ '9'

/-- A time of day; its seconds may be a leap second's and may have a fraction. -/
def time (cs : List Char) : Option (List Char) := do
  let cs ← hourAndMinute cs
  let cs ← sign ':' cs
  let (_, cs) ← fixedDigits 2 0 60 cs
  match cs with
  | '.' :: c :: cs => return if isDigit c then cs.dropWhile isDigit else '.' :: c :: cs
  | cs => return cs

/-- How far a clock is off, if it is told. -/
def clockOffset : List Char → Option (List Char)
  | c :: cs =>
    if c = 'Z' ∨ c = 'z' then some cs
    else if c = '+' ∨ c = '-' then hourAndMinute cs
    else some (c :: cs)
  | [] => some []

/-- Whether two digits and a colon stand at the front, as in a time of day. -/
def beginsTime : List Char → Bool
  | a :: b :: ':' :: _ => isDigit a && isDigit b
  | _ => false

/-- Whether four digits and a hyphen stand at the front, as in a date. -/
def beginsDate : List Char → Bool
  | a :: b :: c :: d :: '-' :: _ => [a, b, c, d].all isDigit
  | _ => false

/-- The rest after a date, and the time of day that may follow it. -/
def dateAndTime (cs : List Char) : Option (List Char) := do
  match ← date cs with
  | c :: rest =>
    if (c = 'T' ∨ c = 't' ∨ c = ' ') ∧ beginsTime rest then do
      let rest ← time rest
      clockOffset rest
    else return c :: rest
  | [] => return []

/-- The rest after a number or a moment. -/
def scalar (cs : List Char) : Option (List Char) :=
  if beginsDate cs then dateAndTime cs
  else if beginsTime cs then time cs
  else number cs

end Toml

end ProposerBook
