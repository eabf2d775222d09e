/-
Percent-encoding.

A character that cannot stand for itself in some part of a URL is written as the
bytes of its UTF-8 form, each as a percent sign and two upper-case digits.  Which
characters those are depends on the part, but outside ASCII it is all of them.
Decoding works on bytes, takes digits of either case, and leaves a percent sign
that no two digits follow as it is.
-/
import ProposerBook.Bytes.Hex

namespace ProposerBook

namespace PercentEncoding

/-- The upper-case digit for a number below sixteen. -/
def digit (n : Nat) : Char := (Hex.digit n).toUpper

def escape (b : UInt8) : List Char := ['%', digit (b.toNat / 16), digit (b.toNat % 16)]

def encodeChar (escaped : Char → Bool) (c : Char) : List Char :=
  if c.toNat < 0x80 && !escaped c then [c] else (String.utf8EncodeChar c).flatMap escape

/-- Writes a text where the characters in `escaped` and those outside ASCII are escaped. -/
def encode (escaped : Char → Bool) (cs : List Char) : List Char :=
  cs.flatMap (encodeChar escaped)

/-- The byte that two digits stand for. -/
def byte? (hi lo : UInt8) : Option UInt8 := do
  let h ← Hex.digitValue? (Char.ofNat hi.toNat)
  let l ← Hex.digitValue? (Char.ofNat lo.toNat)
  return UInt8.ofNat (16 * h + l)

def percent : UInt8 := 0x25

/-- Replaces every escape by its byte. -/
def decode : Bytes → Bytes
  | b :: hi :: lo :: rest =>
    if b = percent then
      match byte? hi lo with
      | some x => x :: decode rest
      | none => b :: decode (hi :: lo :: rest)
    else b :: decode (hi :: lo :: rest)
  | bs => bs

end PercentEncoding

end ProposerBook
