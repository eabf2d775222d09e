/-
The lines of a TOML text.

    line  := [ path ] | [[ path ]] | path = value | nothing
    path  := key { . key }
    value := text | true | false | number | moment | array | table
    array := [ { value , } ]             with line ends and comments anywhere in it
    table := { path = value , ... }      on one line, and no comma before the brace

Fewer than eighty keys make a path, and a value lies in fewer than eighty brackets.
-/
import ProposerBook.Toml.Quoted
import ProposerBook.Toml.Scalar
import ProposerBook.Toml.Tables

namespace ProposerBook

namespace Toml

/-! ### Keys -/

def isKeySign (c : Char) : Bool :=
  ('a' ≤ c && c ≤ 'z') || ('A' ≤ c && c ≤ 'Z') || isDigit c || c == '_' || c == '-'

/-- A key: bare, or between quotes on one line. -/
def key : Reader String
  | [] => none
  | c :: cs =>
    if c = doubleQuote ∨ c = Text.singleQuote then lineText c cs
    else if isKeySign c then
      some (String.ofList ((c :: cs).takeWhile isKeySign), (c :: cs).dropWhile isKeySign)
    else none

/-- A path of at most `room` keys, and the blanks around it. -/
def path : (room : Nat) → Reader Path
  | 0, _ => none
  | room + 1, cs => do
    let (k, cs) ← key (skipBlanks cs)
    match skipBlanks cs with
    | '.' :: cs => do
      let (ks, cs) ← path room cs
      return (k :: ks, cs)
    | cs => return ([k], cs)

/-- How many keys a path may have, and how many brackets a value may lie in. -/
def roomAtTop : Nat := 79

/-! ### Values -/

/-- An entry, and the blanks around it; its value is read by `inner`. -/
def entry (inner : Reader Value) : Reader (Path × Value) := fun cs => do
  let (p, cs) ← path roomAtTop cs
  let cs ← sign '=' cs
  let (v, cs) ← inner (skipBlanks cs)
  return ((p, v), skipBlanks cs)

/-- One element of an array and the comma after it, or the closing bracket. -/
def element (inner : Reader Value) : Reader (Option Unit) := fun cs =>
  match skipGap false cs with
  | ']' :: cs => some (none, cs)
  | cs => do
    let (_, cs) ← inner cs
    match skipGap false cs with
    | ',' :: cs => return (some (), cs)
    | ']' :: cs => return (some (), ']' :: cs)
    | _ => none

/-- One more entry of a table on one line, or the closing brace. -/
def furtherEntry (inner : Reader Value) : Reader (Option (Path × Value))
  | ',' :: cs => (entry inner cs).map fun (e, cs) => (some e, cs)
  | '\x7d' :: cs => some (none, cs)
  | _ => none

/-- The entries of a table on one line, whose opening brace has been taken. -/
def inlineEntries (inner : Reader Value) : Reader (List (Path × Value)) := fun cs =>
  match skipBlanks cs with
  | '\x7d' :: cs => some ([], cs)
  | cs => do
    let (e, cs) ← entry inner cs
    let (es, cs) ← items (furtherEntry inner) cs
    return (e :: es, cs)

/-- A value, those within its brackets being read by `inner`. -/
def valueAround (inner : Option (Reader Value)) : Reader Value
  | 't' :: 'r' :: 'u' :: 'e' :: cs => some (.other, cs)
  | 'f' :: 'a' :: 'l' :: 's' :: 'e' :: cs => some (.other, cs)
  | '[' :: cs => do
    let (_, cs) ← items (element (← inner)) cs
    return (.other, cs)
  | '\x7b' :: cs => do
    let (es, cs) ← inlineEntries (← inner) cs
    let _ ← insertEntries es []
    return (.other, cs)
  | c :: cs =>
    if c = doubleQuote ∨ c = Text.singleQuote then (text c cs).map fun (s, cs) => (.text s, cs)
    else (scalar (c :: cs)).map fun cs => (.other, cs)
  | [] => none

/-- A value that lies in at most `room` more brackets. -/
def value : (room : Nat) → Reader Value
  | 0 => valueAround none
  | room + 1 => valueAround (some (value room))

/-! ### Lines -/

/-- The line at the front, or the end of the text. -/
def line : Reader (Option Line) := fun cs =>
  match skipBlanks cs with
  | [] => some (none, [])
  | '[' :: '[' :: cs => do
    let (p, cs) ← path roomAtTop cs
    let cs ← sign ']' cs
    let cs ← sign ']' cs
    return (some (.arrayHeader p), ← lineEnd? cs)
  | '[' :: cs => do
    let (p, cs) ← path roomAtTop cs
    let cs ← sign ']' cs
    return (some (.header p), ← lineEnd? cs)
  | c :: cs =>
    if c = '#' ∨ c = '\r' ∨ c = '\n' then do
      return (some .empty, ← lineEnd? (c :: cs))
    else do
      let ((p, v), cs) ← entry (value roomAtTop) (c :: cs)
      return (some (.entry p v), ← lineEnd? cs)

/-- The entries of a whole text, which a byte order mark may precede. -/
def parse (s : String) : Option Entries := do
  let cs := match s.toList with
    | '\ufeff' :: cs => cs
    | cs => cs
  let (ls, _) ← items line cs
  ofLines ls

end Toml

end ProposerBook
