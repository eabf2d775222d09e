/-
Lower case by the full Unicode rules.

Every character has a lower-case form of its own but two: the dotted capital I
becomes two characters, and a capital sigma becomes the final sigma at the end of
a word, which is where a cased letter stands before it and none after it, with the
characters in between that count for neither passed over.
-/
import ProposerBook.Text.CaseTable

namespace ProposerBook

namespace Text

/-- The lower-case form of one character, on its own. -/
def lowerChar (c : Char) : List Char :=
  let n := c.toNat
  if n < 0x80 then
    if 'A' ≤ c ∧ c ≤ 'Z' then [Char.ofNat (n + 32)] else [c]
  else if n = 0x130 then ['i', Char.ofNat 0x307]
  else
    match lowerRuns.find? fun r => r.1 ≤ n && n ≤ r.2.1 && (n - r.1) % r.2.2.1 == 0 with
    | some r => [Char.ofNat (Int.toNat (n + r.2.2.2))]
    | none => [c]

def isCased (c : Char) : Bool := casedRanges.contains c

def isCaseIgnorable (c : Char) : Bool := caseIgnorableRanges.contains c

/-- Whether the first character that is not passed over is a cased one. -/
def meetsCased (cs : List Char) : Bool :=
  match cs.dropWhile isCaseIgnorable with
  | [] => false
  | c :: _ => isCased c

/-- Lower-cases `cs`, which the characters `before` precede, the nearest first. -/
def lowerFrom (before : List Char) : List Char → List Char
  | [] => []
  | c :: cs =>
    let here :=
      if c = 'Σ' then
        if meetsCased before && !meetsCased cs then ['ς'] else ['σ']
      else lowerChar c
    here ++ lowerFrom (c :: before) cs

def lower (s : String) : String := String.ofList (lowerFrom [] s.toList)

/-- Whether two texts agree but for the case of ASCII letters. -/
def equalIgnoringAsciiCase (s t : String) : Bool :=
  s.toList.map Char.toLower == t.toList.map Char.toLower

end Text

end ProposerBook
