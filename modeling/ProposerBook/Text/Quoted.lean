/-
Quoted text, as it stands inside messages.

A quoted text shows printable characters as they are.  A double quote, a backslash,
line feed, carriage return, tab and NUL get a backslash; every other character that
could not be told from its neighbours on a screen is written as its code point.
-/
import ProposerBook.Bytes.Hex
import ProposerBook.Text.Unprintable

namespace ProposerBook

namespace Text

/-- A code point in braces, in lower-case hexadecimal with no leading zero. -/
def codePoint (c : Char) : List Char :=
  ['\\', 'u', '{'] ++ (Nat.toDigits 16 c.toNat) ++ ['}']

/-- The controls that have a letter or a digit to stand for them. -/
def lettered : List (Char × Char) :=
  [('\n', 'n'), ('\r', 'r'), ('\t', 't'), (Char.ofNat 0, '0')]

/-- How a character stands between quotes `q`. -/
def quoteChar (q c : Char) : List Char :=
  if c = q ∨ c = '\\' then ['\\', c]
  else
    match lettered.lookup c with
    | some letter => ['\\', letter]
    | none => if unprintable.contains c then codePoint c else [c]

/-- A text between double quotes. -/
def quoted (s : String) : String :=
  String.ofList ('"' :: (s.toList.flatMap (quoteChar '"') ++ ['"']))

def singleQuote : Char := Char.ofNat 0x27

/-- A character between single quotes. -/
def quotedChar (c : Char) : String :=
  String.ofList (singleQuote :: (quoteChar singleQuote c ++ [singleQuote]))

/-- The members of a set of texts, quoted, between braces. -/
def quotedSet (xs : List String) : String :=
  "\x7b" ++ ", ".intercalate (xs.map quoted) ++ "\x7d"

end Text

end ProposerBook
