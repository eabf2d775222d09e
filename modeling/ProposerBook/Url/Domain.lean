/-
Domain names in their ASCII form.

Letters go to lower case, characters that do not show are dropped, full-width
characters become the usual ones, and any of the full stops separates labels.  A label
with other than ASCII characters is then written in Punycode behind `xn--`, and one
that is written so already has to stand for such a label.  A name is refused if a
character is left in it that cannot stand in a domain, or if a label begins with a
mark.
-/
import ProposerBook.Bytes.Basic
import ProposerBook.Text.Lowercase
import ProposerBook.Text.Unprintable
import ProposerBook.Url.Punycode

namespace ProposerBook

namespace Domain

/-! ### Characters -/

/-- Characters that no domain contains: controls, the space and the delimiters of a URL. -/
def isForbidden (c : Char) : Bool :=
  c.toNat ≤ 0x20 || c.toNat == 0x7f || "%#/:<>?@[\\]^|".toList.contains c

/-- Characters that do not show and are dropped. -/
def dropped : CharRanges := [
  (0xad, 0xad), (0x34f, 0x34f), (0x180b, 0x180d), (0x180f, 0x180f), (0x200b, 0x200b),
  (0x2060, 0x2060), (0x2064, 0x2064), (0xfe00, 0xfe0f), (0xfeff, 0xfeff), (0xe0100, 0xe01ef)]

/-- Characters that join others, or tell in which direction text runs. -/
def controlling : CharRanges := [
  (0x61c, 0x61c), (0x180e, 0x180e), (0x200c, 0x200f), (0x202a, 0x202e), (0x2061, 0x206f),
  (0xfff9, 0xfffb), (0xe0001, 0xe007f)]

def fullStops : List Nat := [0x3002, 0xff0e, 0xff61]

/-- What a character becomes.  This only approximates the mapping of Unicode for domain names: a
mark is not joined with its letter into one character, of the characters that are the same but for
their form only the full-width ones are mapped, and there are no rules for joiners and for the
direction of text; the characters that control either may not stand in a label at all. -/
def mapChar (c : Char) : List Char :=
  if c.toNat < 0x80 then [c.toLower]
  else if dropped.contains c then []
  else if fullStops.contains c.toNat then ['.']
  else if 0xff01 ≤ c.toNat ∧ c.toNat ≤ 0xff5e then [(Char.ofNat (c.toNat - 0xfee0)).toLower]
  else Text.lowerChar c

/-- Whether a character shows only together with the one before it. -/
def isMark (c : Char) : Bool := Text.unprintable.contains c && Text.isCaseIgnorable c

/-- Whether a character beyond ASCII may stand in a label. -/
def mayStand (c : Char) : Bool :=
  !controlling.contains c && (!Text.unprintable.contains c || Text.isCaseIgnorable c)

/-! ### Labels -/

def isAscii (cs : List Char) : Bool := cs.all fun c => c.toNat < 0x80

/-- Whether a label with other than ASCII characters is in order. -/
def isProper (label : List Char) : Bool :=
  !label.head?.any isMark && label.all fun c => c.toNat < 0x80 || mayStand c

/-- Whether a label is one that Punycode is there for. -/
def needsPunycode (label : List Char) : Bool :=
  !isAscii label && isProper label && label.flatMap mapChar == label

/-- The ASCII form of a label that has been mapped. -/
def labelToAscii? (label : List Char) : Option (List Char) :=
  match label with
  | 'x' :: 'n' :: '-' :: '-' :: cs =>
    match isAscii cs, Punycode.decode? cs with
    | true, some decoded => if needsPunycode decoded then some label else none
    | _, _ => none
  | _ =>
    if isAscii label then some label
    else if isProper label then some ("xn--".toList ++ Punycode.encode label)
    else none

/-! ### Names -/

/-- The ASCII form of a name given by its UTF-8 bytes. -/
def toAscii? (b : Bytes) : Option (List Char) := do
  let labels := ((← b.toString?).toList.flatMap mapChar).splitOn '.'
  let name := ['.'].intercalate (← labels.mapM labelToAscii?)
  if name.any isForbidden then none else some name

end Domain

end ProposerBook
