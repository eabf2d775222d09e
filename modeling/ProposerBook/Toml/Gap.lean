/-
What stands between the parts of a TOML text, and how its parts are read.

A reader takes its part from the front of a text and yields it with the rest, or
yields nothing where the text is at fault: a TOML text is taken whole or not at all,
so no fault needs a name.  Blanks are space and tab; a line ends with a line feed,
which a carriage return may precede; a comment runs to the end of its line and holds
no control character but the tab.
-/

namespace ProposerBook

namespace Toml

/-- Takes its part from the front of a text. -/
abbrev Reader (α : Type) := List Char → Option (α × List Char)

/-! ### Sequences

Every item of a sequence takes at least one sign, so as many steps as there are signs
suffice. -/

/-- Reads items until `step` yields, in place of an item, the end of the sequence. -/
def itemsWithin (step : Reader (Option α)) : Nat → Reader (List α)
  | 0, _ => none
  | fuel + 1, cs =>
    match step cs with
    | none => none
    | some (none, rest) => some ([], rest)
    | some (some x, rest) => (itemsWithin step fuel rest).map fun (xs, rest) => (x :: xs, rest)

def items (step : Reader (Option α)) : Reader (List α) :=
  fun cs => itemsWithin step (cs.length + 1) cs

/-! ### Gaps -/

def isBlank (c : Char) : Bool := c == ' ' || c == '\t'

/-- What may stand in a comment, and, their closing signs apart, in a text between quotes. -/
def isContent (c : Char) : Bool := c == '\t' || (0x20 ≤ c.toNat && c.toNat ≠ 0x7f)

def skipBlanks (cs : List Char) : List Char := cs.dropWhile isBlank

/-- The rest after a line end. -/
def newline? : List Char → Option (List Char)
  | '\n' :: cs => some cs
  | '\r' :: '\n' :: cs => some cs
  | _ => none

/-- Drops blanks and line ends. -/
def skipLines : List Char → List Char
  | '\r' :: '\n' :: cs => skipLines cs
  | c :: cs => if isBlank c || c == '\n' then skipLines cs else c :: cs
  | [] => []

/-- Drops blanks, line ends and comments; `comment` tells whether a comment has begun. -/
def skipGap (comment : Bool) : List Char → List Char
  | '\r' :: '\n' :: cs => skipGap false cs
  | c :: cs =>
    if comment && isContent c then skipGap true cs
    else if isBlank c || c == '\n' then skipGap false cs
    else if c == '#' then skipGap true cs
    else c :: cs
  | [] => []

/-- What may follow on a line whose part has been read: blanks and a comment, up to the end of
the line or of the text. -/
def lineEnd? (cs : List Char) : Option (List Char) :=
  let rest := match skipBlanks cs with
    | '#' :: cs => cs.dropWhile isContent
    | cs => cs
  if rest.isEmpty then some [] else newline? rest

end Toml

end ProposerBook
