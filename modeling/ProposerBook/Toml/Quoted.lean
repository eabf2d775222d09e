/-
Texts between quotes.

Between double quotes a backslash begins an escape; between single quotes every sign
stands for itself.  Either kind may be written over several lines between threefold
quotes: then the line end right behind the opening quotes does not count, every other
one counts as a line feed, one or two quotes may stand anywhere, also right before the
closing ones, and between double quotes a backslash at the end of a line takes away
the line end and all blanks and empty lines behind it.
-/
import ProposerBook.Toml.Gap
import ProposerBook.Text.Quoted

namespace ProposerBook

namespace Toml

def doubleQuote : Char := '"'

/-- The character whose number the hexadecimal digits give, where there is one. -/
def scalarOf? (digits : List Char) : Option Char := do
  let ds ← digits.mapM Hex.digitValue?
  let n := ds.foldl (fun n d => 16 * n + d) 0
  if n.isValidChar then some (Char.ofNat n) else none

/-- The character for the signs behind a backslash. -/
def escaped : Reader Char
  | 'b' :: cs => some ('\x08', cs)
  | 't' :: cs => some ('\t', cs)
  | 'n' :: cs => some ('\n', cs)
  | 'f' :: cs => some ('\x0c', cs)
  | 'r' :: cs => some ('\r', cs)
  | '"' :: cs => some ('"', cs)
  | '\\' :: cs => some ('\\', cs)
  | 'u' :: cs => if cs.length < 4 then none else (scalarOf? (cs.take 4)).map (·, cs.drop 4)
  | 'U' :: cs => if cs.length < 8 then none else (scalarOf? (cs.take 8)).map (·, cs.drop 8)
  | _ => none

/-- One sign of a text on one line, or its closing quote. -/
def lineSign (quote : Char) : Reader (Option Char)
  | [] => none
  | c :: cs =>
    if c = quote then some (none, cs)
    else if c = '\\' ∧ quote = doubleQuote then (escaped cs).map fun (x, cs) => (some x, cs)
    else if isContent c then some (some c, cs)
    else none

/-- One sign of a text over several lines with what it stands for, or its closing quotes.  Of a
run of four or five quotes the last three close. -/
def blockSign (quote : Char) (cs : List Char) : Option (Option (List Char) × List Char) :=
  match (cs.takeWhile (· == quote)).length, newline? cs, cs with
  | 3, _, _ => some (none, cs.drop 3)
  | _, some rest, _ => some (some ['\n'], rest)
  | _, none, [] => none
  | quotes, none, c :: rest =>
    if 5 < quotes then none
    else if c = '\\' ∧ quote = doubleQuote then
      match newline? (skipBlanks rest) with
      | some rest => some (some [], skipLines rest)
      | none => (escaped rest).map fun (x, rest) => (some [x], rest)
    else if isContent c then some (some [c], rest)
    else none

/-- The text on one line whose opening quote has been taken. -/
def lineText (quote : Char) : Reader String :=
  fun cs => (items (lineSign quote) cs).map fun (xs, rest) => (String.ofList xs, rest)

/-- The text over several lines whose opening quotes have been taken. -/
def blockText (quote : Char) : Reader String := fun cs =>
  let cs := (newline? cs).getD cs
  (items (blockSign quote) cs).map fun (xs, rest) => (String.ofList xs.flatten, rest)

/-- The text after its first quote, in either form. -/
def text (quote : Char) : Reader String
  | a :: b :: cs =>
    if a = quote ∧ b = quote then blockText quote cs else lineText quote (a :: b :: cs)
  | cs => lineText quote cs

end Toml

end ProposerBook
