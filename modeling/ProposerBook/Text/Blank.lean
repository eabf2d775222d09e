/-
Blank characters: those with the Unicode property White_Space.

The set is not the one of the ASCII classes (no-break space and ideographic space
are in it) and not that of "invisible" characters (zero-width space and the byte
order mark are not).
-/
import ProposerBook.Text.Ranges

namespace ProposerBook

namespace Text

/-- White_Space. -/
def blanks : CharRanges := [
  (0x9, 0xd), (0x20, 0x20), (0x85, 0x85), (0xa0, 0xa0), (0x1680, 0x1680), (0x2000, 0x200a),
  (0x2028, 0x2029), (0x202f, 0x202f), (0x205f, 0x205f), (0x3000, 0x3000)]

def isBlank (c : Char) : Bool := blanks.contains c

/-- Drops the blanks at the front. -/
def trimStartChars (cs : List Char) : List Char := cs.dropWhile isBlank

/-- Drops the blanks at both ends. -/
def trimChars (cs : List Char) : List Char :=
  (trimStartChars (trimStartChars cs).reverse).reverse

def trim (s : String) : String := String.ofList (trimChars s.toList)

end Text

end ProposerBook
