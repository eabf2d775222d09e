/-
IPv4 addresses as hosts.

A host whose last part is a number is an address.  It has one to four parts, in
decimal, in octal after a zero, or in hexadecimal after `0x`; each part but the last
fills one byte and the last one fills the bytes that are left, so that `1` is
`0.0.0.1` and `0x7f.1` is `127.0.0.1`.  A dot may end the host.
-/

namespace ProposerBook

/-- An IPv4 address. -/
structure Ipv4 where
  bits : UInt32
  deriving DecidableEq, Repr

namespace Ipv4

/-- The value of a digit in bases up to sixteen. -/
def digit? (base : Nat) (c : Char) : Option Nat :=
  let n := c.toNat
  let d? :=
    if '0' ≤ c ∧ c ≤ '9' then some (n - 48)
    else if 'a' ≤ c ∧ c ≤ 'f' then some (n - 87)
    else if 'A' ≤ c ∧ c ≤ 'F' then some (n - 55)
    else none
  d?.filter (· < base)

/-- The number that digits stand for, after those that make up `n`. -/
def readFrom? (base n : Nat) : List Char → Option Nat
  | [] => some n
  | c :: cs => do readFrom? base (n * base + (← digit? base c)) cs

/-- The number that a part stands for. -/
def number? : List Char → Option Nat
  | [] => none
  | '0' :: 'x' :: cs => readFrom? 16 0 cs
  | '0' :: 'X' :: cs => readFrom? 16 0 cs
  | '0' :: c :: cs => readFrom? 8 0 (c :: cs)
  | cs => readFrom? 10 0 cs

/-- The parts between the dots, one last empty part aside. -/
def parts (host : List Char) : List (List Char) :=
  let ps := host.splitOn '.'
  if ps.getLast? = some [] then ps.dropLast else ps

/-- Whether a host has to be read as an address. -/
def endsInNumber (host : List Char) : Bool :=
  match (parts host).getLast? with
  | none => false
  | some p => (!p.isEmpty && p.all fun c => '0' ≤ c ∧ c ≤ '9') || (number? p).isSome

/-- The value of parts that fill `k` bytes. -/
def fill? : Nat → List Nat → Option Nat
  | 0, _ => none
  | _, [] => none
  | k + 1, [n] => if n < Nat.pow 256 (k + 1) then some n else none
  | k + 1, n :: ns => if n < 256 then (fill? k ns).map (n * Nat.pow 256 k + ·) else none

/-- The address that a host stands for. -/
def parse? (host : List Char) : Option Ipv4 := do
  let ns ← (parts host).mapM number?
  return ⟨UInt32.ofNat (← fill? 4 ns)⟩

def toChars (a : Ipv4) : List Char :=
  let n := a.bits.toNat
  (s!"{n / 0x1000000}.{n / 0x10000 % 256}.{n / 0x100 % 256}.{n % 256}").toList

end Ipv4

end ProposerBook
