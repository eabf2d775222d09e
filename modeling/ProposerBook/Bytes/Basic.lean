/-
Bytes, and text as bytes.

A message is a list of bytes.  Text becomes bytes by UTF-8, and bytes become
text where they are UTF-8; the two are inverse to each other because `String`
is by definition a byte sequence with a proof that it is UTF-8.
-/

namespace ProposerBook

abbrev Bytes := List UInt8

namespace Bytes

/-- The UTF-8 form of a text. -/
def ofString (s : String) : Bytes := s.toByteArray.data.toList

/-- The text of which these bytes are the UTF-8 form, if they are one. -/
def toString? (b : Bytes) : Option String := String.fromUTF8? ⟨b.toArray⟩

/-- A written text is read back. -/
@[simp] theorem toString?_ofString (s : String) : (ofString s).toString? = some s := by
  simp [ofString, toString?, String.fromUTF8?, s.isValidUTF8, String.fromUTF8]

/-- Only the form of a text is read as that text. -/
theorem eq_ofString_of_toString? {b : Bytes} {s : String} (h : b.toString? = some s) :
    b = ofString s := by
  unfold toString? String.fromUTF8? at h
  split at h
  · cases h
    simp [ofString, String.fromUTF8]
  · cases h

end Bytes

end ProposerBook
