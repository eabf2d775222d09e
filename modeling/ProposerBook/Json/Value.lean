/-
JSON values and their compact text.

The text has no white space.  Between quotes stand the characters themselves, but
for the quote, the backslash and the controls: those have an escape, of one letter
where there is one and else of four digits.
-/
import ProposerBook.Json.Tree
import ProposerBook.Bytes.Hex

namespace ProposerBook

namespace Json

inductive Value
  | null
  | bool (b : Bool)
  | number (n : Literal)
  | string (s : String)
  | array (items : List Value)
  | object (entries : List (String × Value))

instance : Inhabited Value := ⟨.null⟩

/-- The digits of a number. -/
def natDigits (n : Nat) : List Nat := (Nat.toDigits 10 n).map fun c => c.toNat - '0'.toNat

namespace Value

def nat (n : Nat) : Value := .number { negative := false, whole := natDigits n }

/-- How one byte of a text stands between quotes. -/
def escape (b : UInt8) : Bytes :=
  if b = 0x22 ∨ b = 0x5c then [0x5c, b]
  else if b = 0x08 then Bytes.ofString "\\b"
  else if b = 0x09 then Bytes.ofString "\\t"
  else if b = 0x0a then Bytes.ofString "\\n"
  else if b = 0x0c then Bytes.ofString "\\f"
  else if b = 0x0d then Bytes.ofString "\\r"
  else if b < 0x20 then Bytes.ofString "\\u00" ++ (Hex.digits b).map Char.toUInt8
  else [b]

def writeString (s : String) : Bytes := 0x22 :: ((Bytes.ofString s).flatMap escape ++ [0x22])

def writeDigits (ds : List Nat) : Bytes := ds.map fun d => UInt8.ofNat (0x30 + d)

def writeNumber (l : Literal) : Bytes :=
  (if l.negative then [0x2d] else []) ++ writeDigits l.whole
    ++ (if l.fraction.isEmpty then [] else 0x2e :: writeDigits l.fraction)
    ++ match l.exponent? with
      | none => []
      | some (negative, ds) => 0x65 :: (if negative then [0x2d] else []) ++ writeDigits ds

mutual

/-- The compact text. -/
def write : Value → Bytes
  | .null => Bytes.ofString "null"
  | .bool true => Bytes.ofString "true"
  | .bool false => Bytes.ofString "false"
  | .number n => writeNumber n
  | .string s => writeString s
  | .array vs => 0x5b :: (writeItems vs ++ [0x5d])
  | .object es => 0x7b :: (writeEntries es ++ [0x7d])

def writeItems : List Value → Bytes
  | [] => []
  | [v] => v.write
  | v :: vs => v.write ++ 0x2c :: writeItems vs

def writeEntries : List (String × Value) → Bytes
  | [] => []
  | [(k, v)] => writeString k ++ 0x3a :: v.write
  | (k, v) :: es => writeString k ++ 0x3a :: (v.write ++ 0x2c :: writeEntries es)

end

end Value

mutual

/-- The tree of a value. -/
def Tree.ofValue : Value → Tree
  | .null => .null
  | .bool b => .bool b
  | .number n => .number n
  | .string s => .string (.ok s)
  | .array vs => .array (treesOf vs) none
  | .object es => .object (entriesOf es) none

def treesOf : List Value → List Tree
  | [] => []
  | v :: vs => Tree.ofValue v :: treesOf vs

def entriesOf : List (String × Value) → List (StringLiteral × Tree)
  | [] => []
  | (k, v) :: es => (.ok k, Tree.ofValue v) :: entriesOf es

end

end Json

end ProposerBook
