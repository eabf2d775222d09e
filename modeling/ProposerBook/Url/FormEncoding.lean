/-
Form encoding: pairs of texts in a query.

A name and its value have an equals sign between them, and pairs an ampersand.  Inside,
letters, digits and four marks stand for themselves, a plus sign stands for a space,
and all else is escaped byte by byte; so no text can be taken for a delimiter.
-/
import ProposerBook.Url.PercentEncoding

namespace ProposerBook

namespace FormEncoding

def isPlain (b : UInt8) : Bool :=
  let c := Char.ofUInt8 b
  c.isAlphanum || c == '*' || c == '-' || c == '.' || c == '_'

def encodeByte (b : UInt8) : List Char :=
  if isPlain b then [Char.ofUInt8 b] else if b = 0x20 then ['+'] else PercentEncoding.escape b

def encodeText (s : String) : List Char := (Bytes.ofString s).flatMap encodeByte

def encodePair (p : String × String) : List Char := encodeText p.1 ++ '=' :: encodeText p.2

/-- The query that holds these pairs, in their order. -/
def encode (ps : List (String × String)) : List Char := ['&'].intercalate (ps.map encodePair)

/-- The text that a piece of a query stands for. -/
def decodeText? (cs : List Char) : Option String :=
  (PercentEncoding.decode
    (Bytes.ofString (String.ofList (cs.map fun c => if c = '+' then ' ' else c)))).toString?

/-- The pair that a piece of a query stands for. -/
def decodePair? (cs : List Char) : Option (String × String) := do
  let name ← decodeText? (cs.takeWhile (· != '='))
  let value ← decodeText? ((cs.dropWhile (· != '=')).drop 1)
  return (name, value)

/-- The pairs that a query holds. -/
def decode? (cs : List Char) : Option (List (String × String)) :=
  ((cs.splitOn '&').filter fun p => !p.isEmpty).mapM decodePair?

end FormEncoding

end ProposerBook
