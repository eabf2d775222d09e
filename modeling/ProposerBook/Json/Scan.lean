/-
From the bytes of a text to its tree.

    value  := null | true | false | number | string | array | object
    array  := [ ] | [ value { , value } ]
    object := { } | { string : value { , string : value } }

with white space (space, tab, line feed, carriage return) between any two signs.
A step takes the signs it needs from the front and yields the rest; where the text
breaks off, it yields the break and there is no rest.
-/
import ProposerBook.Json.Tree
import ProposerBook.Bytes.Hex

namespace ProposerBook

namespace Json

namespace Scan

def isSpace (b : UInt8) : Bool := b == 0x20 || b == 0x09 || b == 0x0a || b == 0x0d

def skipSpace (b : Bytes) : Bytes := b.dropWhile isSpace

/-! ### Texts between quotes -/

/-- The number of four hexadecimal digits at the front. -/
def fourDigits : Bytes → Except Fault (Nat × Bytes)
  | a :: b :: c :: d :: rest =>
    match [a, b, c, d].mapM fun x => Hex.digitValue? (Char.ofUInt8 x) with
    | some ds => .ok (ds.foldl (fun n x => 16 * n + x) 0, rest)
    | none => .error .malformed
  | _ => .error .cutShort

/-- What a backslash and this letter stand for. -/
def escaped? (letter : UInt8) : Option UInt8 :=
  match Char.ofUInt8 letter with
  | '"' => some 0x22
  | '\\' => some 0x5c
  | '/' => some 0x2f
  | 'b' => some 0x08
  | 'f' => some 0x0c
  | 'n' => some 0x0a
  | 'r' => some 0x0d
  | 't' => some 0x09
  | _ => none

/-- The UTF-8 form of a code point. -/
def utf8 (n : Nat) : Bytes := Bytes.ofString (Char.ofNat n).toString

/-- The character that a `\u` escape stands for, the signs after the `u` being given.  A leading
surrogate needs a trailing one right behind it, and a trailing one cannot stand alone. -/
def unicodeEscape (b : Bytes) : Except Fault (Bytes × Bytes) := do
  let (n, b) ← fourDigits b
  if 0xdc00 ≤ n ∧ n ≤ 0xdfff then .error .malformed
  else if 0xd800 ≤ n ∧ n ≤ 0xdbff then
    match b with
    | [] => .error .cutShort
    | 0x5c :: [] => .error .cutShort
    | 0x5c :: 0x75 :: b =>
      let (m, b) ← fourDigits b
      if 0xdc00 ≤ m ∧ m ≤ 0xdfff then
        .ok (utf8 (0x10000 + (n - 0xd800) * 0x400 + (m - 0xdc00)), b)
      else .error .malformed
    | _ => .error .malformed
  else .ok (utf8 n, b)

/-- Reads up to the closing quote, and yields the bytes that the text stands for. -/
def readString : Nat → Bytes → Except Fault (Bytes × Bytes)
  | 0, _ => .error .cutShort
  | _ + 1, [] => .error .cutShort
  | fuel + 1, c :: b =>
    if c = 0x22 then .ok ([], b)
    else if c = 0x5c then
      match b with
      | [] => .error .cutShort
      | 0x75 :: b => do
        let (here, b) ← unicodeEscape b
        let (more, b) ← readString fuel b
        return (here ++ more, b)
      | letter :: b =>
        match escaped? letter with
        | none => .error .malformed
        | some x => do
          let (more, b) ← readString fuel b
          return (x :: more, b)
    else if c < 0x20 then .error .malformed
    else do
      let (more, b) ← readString fuel b
      return (c :: more, b)

/-- Skips up to the closing quote; an escape need only have the right form. -/
def skipString : Nat → Bytes → Except Fault Bytes
  | 0, _ => .error .cutShort
  | _ + 1, [] => .error .cutShort
  | fuel + 1, c :: b =>
    if c = 0x22 then .ok b
    else if c = 0x5c then
      match b with
      | [] => .error .cutShort
      | 0x75 :: b => do
        let (_, b) ← fourDigits b
        skipString fuel b
      | letter :: b =>
        match escaped? letter with
        | none => .error .malformed
        | some _ => skipString fuel b
    else if c < 0x20 then .error .malformed
    else skipString fuel b

/-- The text between quotes whose opening quote has been taken. -/
def string (b : Bytes) : Except Break (StringLiteral × Bytes) :=
  let said : StringLiteral := do
    let (content, _) ← readString (b.length + 1) b
    match content.toString? with
    | some s => .ok s
    | none => .error .malformed
  match skipString (b.length + 1) b with
  | .ok rest => .ok (said, rest)
  | .error f =>
    match said with
    | .error g => .error ⟨g, f⟩
    | .ok _ => .error ⟨f, f⟩

/-! ### Numbers -/

def digit? (b : UInt8) : Option Nat :=
  if 0x30 ≤ b ∧ b ≤ 0x39 then some (b.toNat - 0x30) else none

/-- The digits at the front. -/
def digits : Bytes → List Nat × Bytes
  | [] => ([], [])
  | b :: rest =>
    match digit? b with
    | none => ([], b :: rest)
    | some d => let (ds, rest) := digits rest; (d :: ds, rest)

/-- The break at a place where a digit is missing.  One who skips a number does not tell the end
of the text from a wrong sign. -/
def missingDigit : Bytes → Break
  | [] => ⟨.cutShort, .malformed⟩
  | _ => ⟨.malformed, .malformed⟩

/-- At least one digit. -/
def someDigits (b : Bytes) : Except Break (List Nat × Bytes) :=
  match digits b with
  | ([], rest) => .error (missingDigit rest)
  | r => .ok r

/-- The digits before the point: a zero stands alone. -/
def wholeDigits (b : Bytes) : Except Break (List Nat × Bytes) :=
  match digits b with
  | ([], rest) => .error (missingDigit rest)
  | (0 :: _ :: _, _) => .error (.of .malformed)
  | r => .ok r

def exponent : Bytes → Except Break (Option (Bool × List Nat) × Bytes)
  | e :: rest =>
    if e = 0x65 ∨ e = 0x45 then do
      let (negative, rest) := match rest with
        | 0x2b :: rest => (false, rest)
        | 0x2d :: rest => (true, rest)
        | rest => (false, rest)
      let (ds, rest) ← someDigits rest
      return (some (negative, ds), rest)
    else .ok (none, e :: rest)
  | [] => .ok (none, [])

/-- A number without its sign. -/
def number (negative : Bool) (b : Bytes) : Except Break (Literal × Bytes) := do
  let (whole, b) ← wholeDigits b
  let (fraction, b) ← match b with
    | 0x2e :: b => someDigits b
    | b => .ok ([], b)
  let (exponent?, b) ← exponent b
  return ({ negative, whole, fraction, exponent? }, b)

/-! ### Values -/

/-- The signs that follow the first one of a word. -/
def word : Bytes → Bytes → Except Break Bytes
  | [], b => .ok b
  | _ :: _, [] => .error (.of .cutShort)
  | w :: ws, c :: b => if w = c then word ws b else .error (.of .malformed)

/-- What stands before the next value, or at the end of the text. -/
def endOr (f : Bytes) : Break :=
  match f with
  | [] => .of .cutShort
  | _ => .of .malformed

/-- A leaf of the tree, or its break. -/
def leaf (f : α → Tree) : Except Break (α × Bytes) → Tree × Option Bytes
  | .ok (x, rest) => (f x, some rest)
  | .error b => (.broken b, none)

mutual

/-- The value at the front, and the rest where the value is whole. -/
def value : Nat → Bytes → Tree × Option Bytes
  | 0, _ => (.broken (.of .cutShort), none)
  | fuel + 1, b =>
    match skipSpace b with
    | [] => (.broken (.of .cutShort), none)
    | c :: b =>
      match Char.ofUInt8 c with
      | 'n' => leaf (fun _ => .null) ((word (Bytes.ofString "ull") b).map ((), ·))
      | 't' => leaf (fun _ => .bool true) ((word (Bytes.ofString "rue") b).map ((), ·))
      | 'f' => leaf (fun _ => .bool false) ((word (Bytes.ofString "alse") b).map ((), ·))
      | '"' => leaf .string (string b)
      | '-' => leaf .number (number true b)
      | '[' =>
        match skipSpace b with
        | 0x5d :: b => (.array [] none, some b)
        | [] => (.array [] (some (.of .cutShort)), none)
        | b => let (ts, stop, rest) := items fuel b; (.array ts stop, rest)
      | '{' =>
        match skipSpace b with
        | 0x7d :: b => (.object [] none, some b)
        | [] => (.object [] (some (.of .cutShort)), none)
        | b => let (es, stop, rest) := entries fuel b; (.object es stop, rest)
      | _ =>
        if (digit? c).isSome then leaf .number (number false (c :: b))
        else (.broken (.of .malformed), none)

/-- The values of an array up to its closing bracket. -/
def items : Nat → Bytes → List Tree × Option Break × Option Bytes
  | 0, _ => ([], some (.of .cutShort), none)
  | fuel + 1, b =>
    match value fuel b with
    | (t, none) => ([t], none, none)
    | (t, some b) =>
      match skipSpace b with
      | 0x5d :: b => ([t], none, some b)
      | 0x2c :: b => let (ts, stop, rest) := items fuel b; (t :: ts, stop, rest)
      | b => ([t], some (endOr b), none)

/-- The entries of an object up to its closing brace. -/
def entries : Nat → Bytes → List (StringLiteral × Tree) × Option Break × Option Bytes
  | 0, _ => ([], some (.of .cutShort), none)
  | fuel + 1, b =>
    match skipSpace b with
    | 0x22 :: b =>
      match string b with
      | .error stop => ([], some stop, none)
      | .ok (key, b) =>
        match skipSpace b with
        | 0x3a :: b =>
          match value fuel b with
          | (t, none) => ([(key, t)], none, none)
          | (t, some b) =>
            match skipSpace b with
            | 0x7d :: b => ([(key, t)], none, some b)
            | 0x2c :: b => let (es, stop, rest) := entries fuel b; ((key, t) :: es, stop, rest)
            | b => ([(key, t)], some (endOr b), none)
        | b => ([(key, .broken (endOr b))], none, none)
    | b => ([], some (endOr b), none)

end

end Scan

/-- Reads a whole text.  Every step into a value takes a sign, so as many steps as there are signs
suffice. -/
def scan (b : Bytes) : Document :=
  match Scan.value (2 * b.length + 2) b with
  | (root, none) => ⟨root, false⟩
  | (root, some rest) => ⟨root, !(Scan.skipSpace rest).isEmpty⟩

end Json

end ProposerBook
