/-
What a JSON text is.

A text is related to the tree that it spells, without a word about how it is read.  White
space may stand between any two signs.  A character between quotes may stand for itself or be
escaped, by a letter where it has one or by the number of its code point, which beyond the
first plane takes two numbers.  A number may have any spelling that the grammar knows.

Between quotes there may also be something that has the right form and says nothing: half of
a pair of numbers, or bytes that are not UTF-8.  Such a text is still a text, and whoever skips
it passes over it; the tree has a fault in its place.
-/
import ProposerBook.Json.Scan
import ProposerBook.Json.Value

namespace ProposerBook

namespace Json

/-- White space. -/
def Space (b : Bytes) : Prop := ∀ c ∈ b, Scan.isSpace c = true

/-! ### Texts between quotes -/

/-- Four hexadecimal digits, and the number that they make up. -/
def FourDigits (b : Bytes) (n : Nat) : Prop :=
  b.length = 4 ∧ ∃ ds, (b.mapM fun x => Hex.digitValue? (Char.ofUInt8 x)) = some ds ∧
    n = ds.foldl (fun n d => 16 * n + d) 0

/-- Whether a byte may stand for itself between quotes. -/
def IsPlain (c : UInt8) : Prop := c ≠ 0x22 ∧ c ≠ 0x5c ∧ ¬c < 0x20

/-- What stands between quotes, and the bytes that it says. -/
inductive Says : Bytes → Bytes → Prop
  | nil : Says [] []
  | plain {c : UInt8} {text content : Bytes} (form : IsPlain c) (more : Says text content) :
    Says (c :: text) (c :: content)
  | letter {l x : UInt8} {text content : Bytes} (form : Scan.escaped? l = some x)
      (more : Says text content) : Says (0x5c :: l :: text) (x :: content)
  /-- A code point that is no half of a pair. -/
  | point {d text content : Bytes} {n : Nat} (digits : FourDigits d n)
      (alone : ¬(0xd800 ≤ n ∧ n ≤ 0xdfff)) (more : Says text content) :
    Says (0x5c :: 0x75 :: (d ++ text)) (Scan.utf8 n ++ content)
  | pair {d e text content : Bytes} {n m : Nat} (first : FourDigits d n) (second : FourDigits e m)
      (high : 0xd800 ≤ n ∧ n ≤ 0xdbff) (low : 0xdc00 ≤ m ∧ m ≤ 0xdfff) (more : Says text content) :
    Says (0x5c :: 0x75 :: (d ++ 0x5c :: 0x75 :: (e ++ text)))
      (Scan.utf8 (0x10000 + (n - 0xd800) * 0x400 + (m - 0xdc00)) ++ content)

/-- What may stand between quotes, whether it says something or not. -/
inductive Quotable : Bytes → Prop
  | nil : Quotable []
  | plain {c : UInt8} {text : Bytes} (form : IsPlain c) (more : Quotable text) :
    Quotable (c :: text)
  | letter {l x : UInt8} {text : Bytes} (form : Scan.escaped? l = some x)
      (more : Quotable text) : Quotable (0x5c :: l :: text)
  | unit {d text : Bytes} {n : Nat} (digits : FourDigits d n) (more : Quotable text) :
    Quotable (0x5c :: 0x75 :: (d ++ text))

/-- A text with its quotes. -/
inductive QuotedText : StringLiteral → Bytes → Prop
  | said {s : String} {text : Bytes} (content : Says text (Bytes.ofString s)) :
    QuotedText (.ok s) (0x22 :: (text ++ [0x22]))
  | nothing {text : Bytes} (form : Quotable text) (empty : ∀ s, ¬Says text (Bytes.ofString s)) :
    QuotedText (.error .malformed) (0x22 :: (text ++ [0x22]))

/-! ### Numbers -/

/-- Some digits, at least one. -/
structure Digits (ds : List Nat) : Prop where
  nonempty : ds ≠ []
  below : ∀ d ∈ ds, d < 10

inductive FractionText : List Nat → Bytes → Prop
  | none : FractionText [] []
  | some {ds : List Nat} (digits : Digits ds) : FractionText ds (0x2e :: Value.writeDigits ds)

inductive ExponentText : Option (Bool × List Nat) → Bytes → Prop
  | none : ExponentText none []
  | some {mark : UInt8} {negative : Bool} {sign : Bytes} {ds : List Nat}
      (letter : mark = 0x65 ∨ mark = 0x45)
      (signed : (negative, sign) ∈ [(false, []), (false, [0x2b]), (true, [0x2d])])
      (digits : Digits ds) :
    ExponentText (some (negative, ds)) (mark :: (sign ++ Value.writeDigits ds))

/-- A number; a zero before the point stands alone. -/
inductive NumberText : Literal → Bytes → Prop
  | intro {negative : Bool} {whole fraction : List Nat} {exponent? : Option (Bool × List Nat)}
      {f e : Bytes} (digits : Digits whole) (alone : ∀ ds, whole = 0 :: ds → ds = [])
      (fractional : FractionText fraction f) (exponential : ExponentText exponent? e) :
    NumberText ⟨negative, whole, fraction, exponent?⟩
      ((if negative then [0x2d] else []) ++ (Value.writeDigits whole ++ (f ++ e)))

/-! ### Values -/

/-- A part of a text, with what it spells. -/
inductive Part
  | value (t : Tree)
  /-- A value with white space around it. -/
  | item (t : Tree)
  /-- A key and its value, with white space around them. -/
  | entry (k : StringLiteral) (t : Tree)
  /-- The values of an array, at least one. -/
  | items (ts : List Tree)
  /-- The entries of an object, at least one. -/
  | entries (es : List (StringLiteral × Tree))

inductive Spells : Part → Bytes → Prop
  | null : Spells (.value .null) (Bytes.ofString "null")
  | yes : Spells (.value (.bool true)) (Bytes.ofString "true")
  | no : Spells (.value (.bool false)) (Bytes.ofString "false")
  | number {l : Literal} {b : Bytes} (text : NumberText l b) : Spells (.value (.number l)) b
  | string {s : StringLiteral} {b : Bytes} (text : QuotedText s b) : Spells (.value (.string s)) b
  | emptyArray {w : Bytes} (space : Space w) :
    Spells (.value (.array [] none)) (0x5b :: (w ++ [0x5d]))
  | array {ts : List Tree} {b : Bytes} (items : Spells (.items ts) b) :
    Spells (.value (.array ts none)) (0x5b :: (b ++ [0x5d]))
  | emptyObject {w : Bytes} (space : Space w) :
    Spells (.value (.object [] none)) (0x7b :: (w ++ [0x7d]))
  | object {es : List (StringLiteral × Tree)} {b : Bytes} (entries : Spells (.entries es) b) :
    Spells (.value (.object es none)) (0x7b :: (b ++ [0x7d]))
  | item {t : Tree} {before b after : Bytes} (front : Space before) (value : Spells (.value t) b)
      (back : Space after) : Spells (.item t) (before ++ (b ++ after))
  | entry {k : StringLiteral} {t : Tree} {before key between b : Bytes} (front : Space before)
      (text : QuotedText k key) (middle : Space between) (item : Spells (.item t) b) :
    Spells (.entry k t) (before ++ (key ++ (between ++ 0x3a :: b)))
  | lastItem {t : Tree} {b : Bytes} (item : Spells (.item t) b) : Spells (.items [t]) b
  | moreItems {t : Tree} {ts : List Tree} {b c : Bytes} (item : Spells (.item t) b)
      (more : Spells (.items ts) c) : Spells (.items (t :: ts)) (b ++ 0x2c :: c)
  | lastEntry {k : StringLiteral} {t : Tree} {b : Bytes} (entry : Spells (.entry k t) b) :
    Spells (.entries [(k, t)]) b
  | moreEntries {k : StringLiteral} {t : Tree} {es : List (StringLiteral × Tree)} {b c : Bytes}
      (entry : Spells (.entry k t) b) (more : Spells (.entries es) c) :
    Spells (.entries ((k, t) :: es)) (b ++ 0x2c :: c)

/-! ### Nothing is wrong with a tree that is spelled -/

/-- What a reader who skips a part finds wrong. -/
def Part.skip : Part → Option Fault
  | .value t | .item t | .entry _ t => t.skip
  | .items ts => skipItems ts
  | .entries es => skipEntries es

theorem skip_of_spells {p : Part} {b : Bytes} (h : Spells p b) : p.skip = none := by
  induction h with
  | null => rfl
  | yes => rfl
  | no => rfl
  | number => rfl
  | string => rfl
  | emptyArray => rfl
  | @array ts b items ih =>
    show (skipItems ts).or none = none
    rw [show skipItems ts = none from ih]
    rfl
  | emptyObject => rfl
  | @object es b entries ih =>
    show (skipEntries es).or none = none
    rw [show skipEntries es = none from ih]
    rfl
  | item front value back ih => exact ih
  | entry front text middle item ih => exact ih
  | @lastItem t b item ih =>
    show t.skip.or none = none
    rw [show t.skip = none from ih]
    rfl
  | @moreItems t ts b c item more ih ihmore =>
    show t.skip.or (skipItems ts) = none
    rw [show t.skip = none from ih, show skipItems ts = none from ihmore]
    rfl
  | @lastEntry k t b entry ih =>
    show t.skip.or none = none
    rw [show t.skip = none from ih]
    rfl
  | @moreEntries k t es b c entry more ih ihmore =>
    show t.skip.or (skipEntries es) = none
    rw [show t.skip = none from ih, show skipEntries es = none from ihmore]
    rfl

/-- Entries with keys that say something. -/
def keyed (es : List (String × Tree)) : List (StringLiteral × Tree) :=
  es.map fun e => (.ok e.1, e.2)

theorem skip_of_keyed {es : List (String × Tree)} (h : skipEntries (keyed es) = none) :
    ∀ e ∈ es, e.2.skip = none := by
  induction es with
  | nil => nofun
  | cons e es ih =>
    have hboth : e.2.skip = none ∧ skipEntries (keyed es) = none := Option.or_eq_none_iff.mp h
    intro e' he'
    rcases List.mem_cons.mp he' with rfl | he'
    · exact hboth.1
    · exact ih hboth.2 e' he'

end Json

end ProposerBook
