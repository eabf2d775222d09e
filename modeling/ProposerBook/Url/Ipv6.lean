/-
IPv6 addresses as hosts.

An address is eight pieces of up to four hexadecimal digits between colons.  Two
colons in a row, once, stand for as many zero pieces as are missing, one at least;
the last two pieces may be written as four decimal bytes between dots.

It is written without leading zeros, and its longest run of zero pieces, the first
of the longest ones, goes into two colons, unless it is a single piece.
-/
import ProposerBook.Url.Ipv4

namespace ProposerBook

/-- An IPv6 address. -/
structure Ipv6 where
  pieces : List UInt16
  eight : pieces.length = 8

namespace Ipv6

/-! ### Reading -/

/-- A piece in hexadecimal. -/
def piece? (cs : List Char) : Option UInt16 :=
  if cs.isEmpty || 4 < cs.length then none else (Ipv4.readFrom? 16 0 cs).map UInt16.ofNat

/-- A decimal byte, without leading zeros. -/
def byte? : List Char → Option Nat
  | [] => none
  | '0' :: _ :: _ => none
  | cs => if 3 < cs.length then none else (Ipv4.readFrom? 10 0 cs).filter (· < 256)

/-- Four decimal bytes, as two pieces. -/
def dotted? (cs : List Char) : Option (List UInt16) := do
  match ← (cs.splitOn '.').mapM byte? with
  | [a, b, c, d] => return [UInt16.ofNat (a * 256 + b), UInt16.ofNat (c * 256 + d)]
  | _ => none

/-- The pieces of parts, of which the last may be dotted. -/
def pieces? : List (List Char) → Option (List UInt16)
  | [] => some []
  | [p] => if p.contains '.' then dotted? p else (piece? p).map ([·])
  | p :: ps => do return (← piece? p) :: (← pieces? ps)

/-- What stands before and after the first two colons in a row. -/
def splitAtGap? : List Char → Option (List Char × List Char)
  | ':' :: ':' :: cs => some ([], cs)
  | [] => none
  | c :: cs => (splitAtGap? cs).map fun (l, r) => (c :: l, r)

/-- The parts between colons; there is none in an empty text. -/
def parts (cs : List Char) : List (List Char) := if cs.isEmpty then [] else cs.splitOn ':'

def ofPieces? (ps : List UInt16) : Option Ipv6 :=
  if h : ps.length = 8 then some ⟨ps, h⟩ else none

/-- The address between the brackets of a host. -/
def parse? (cs : List Char) : Option Ipv6 :=
  match splitAtGap? cs with
  | none => do ofPieces? (← pieces? (parts cs))
  | some (l, r) => do
    let before ← (parts l).mapM piece?
    let after ← pieces? (parts r)
    if before.length + after.length < 8 then
      ofPieces? (before ++ List.replicate (8 - (before.length + after.length)) 0 ++ after)
    else none

/-! ### Writing -/

/-- How many zero pieces a list begins with. -/
def zeros (ps : List UInt16) : Nat := (ps.takeWhile (· == 0)).length

/-- Where the first of the longest zero runs begins in `ps`, which stands at `i`, and its length,
if it is longer than `best` or else `best` itself. -/
def longestRun (i : Nat) (best : Nat × Nat) : List UInt16 → Nat × Nat
  | [] => best
  | p :: ps =>
    let n := zeros (p :: ps)
    longestRun (i + 1) (if best.2 < n then (i, n) else best) ps

def pieceChars (p : UInt16) : List Char := Nat.toDigits 16 p.toNat

def joined (ps : List UInt16) : List Char := [':'].intercalate (ps.map pieceChars)

def toChars (a : Ipv6) : List Char :=
  let (start, n) := longestRun 0 (0, 1) a.pieces
  if n = 1 then joined a.pieces
  else joined (a.pieces.take start) ++ [':', ':'] ++ joined (a.pieces.drop (start + n))

end Ipv6

end ProposerBook
