/-
Texts as bytes, character by character.

The bytes of a text are those of its characters, one after the other, and a character of
ASCII is one byte.  So where a text is known to be ASCII, a reader that works on bytes and
one that works on characters see the same thing.  That it is ASCII can be told from its bytes:
every other character has a byte beyond ASCII.
-/
import ProposerBook.Bytes.Basic

namespace ProposerBook

namespace Bytes

/-- The UTF-8 form of a text is that of its characters, one after the other. -/
theorem ofString_eq_flatMap (s : String) :
    ofString s = s.toList.flatMap String.utf8EncodeChar := by
  have hbytes : s.toByteArray = s.toList.utf8Encode := by
    rw [← String.toByteArray_ofList, String.ofList_toList]
  unfold ofString
  rw [hbytes]
  exact List.toList_data_toByteArray

theorem utf8EncodeChar_of_ascii {c : Char} (h : c.toNat < 128) :
    String.utf8EncodeChar c = [c.toUInt8] := by
  unfold String.utf8EncodeChar
  exact if_pos (Nat.le_of_lt_succ h)

/-- The bytes of an ASCII text are its characters. -/
theorem ofString_of_ascii {cs : List Char} (h : ∀ c ∈ cs, c.toNat < 128) :
    ofString (String.ofList cs) = cs.map Char.toUInt8 := by
  rw [ofString_eq_flatMap, String.toList_ofList]
  induction cs with
  | nil => rfl
  | cons c cs ih =>
    rw [List.flatMap_cons, List.map_cons, utf8EncodeChar_of_ascii (h c List.mem_cons_self),
      ih fun d hd => h d (List.mem_cons_of_mem _ hd)]
    rfl

/-- The last byte of a character beyond ASCII is beyond ASCII. -/
theorem exists_beyond_ascii {c : Char} (h : 128 ≤ c.toNat) :
    ∃ x ∈ String.utf8EncodeChar c, 128 ≤ x.toNat := by
  have hlast : 128 ≤ (UInt8.ofNat (c.val.toNat % 64 + 128)).toNat := by
    rw [UInt8.toNat_ofNat']
    omega
  have hval : ¬c.val.toNat ≤ 127 := Nat.not_le.mpr h
  refine ⟨UInt8.ofNat (c.val.toNat % 64 + 128), ?_, hlast⟩
  unfold String.utf8EncodeChar
  simp only [if_neg hval]
  split
  · simp
  · split
    · simp
    · simp

/-- A text of which all bytes are ASCII is ASCII. -/
theorem ascii_of_ofString {cs : List Char} (h : ∀ x ∈ ofString (String.ofList cs), x.toNat < 128) :
    ∀ c ∈ cs, c.toNat < 128 := by
  intro c hc
  apply Nat.lt_of_not_le
  intro hbeyond
  obtain ⟨x, hx, hlast⟩ := exists_beyond_ascii hbeyond
  rw [ofString_eq_flatMap, String.toList_ofList] at h
  have hascii := h x (List.mem_flatMap.mpr ⟨c, hc, hx⟩)
  omega

theorem ofUInt8_toUInt8 {c : Char} (h : c.toNat < 128) : Char.ofUInt8 c.toUInt8 = c := by
  have hsmall : c.val.toNat % 256 = c.val.toNat := Nat.mod_eq_of_lt (Nat.lt_trans h (by decide))
  apply Char.ext
  apply UInt32.toNat_inj.mp
  show c.val.toNat % 256 = c.val.toNat
  exact hsmall

/-- Read byte by byte, an ASCII text is itself. -/
theorem map_ofUInt8_of_ascii {cs : List Char} (h : ∀ c ∈ cs, c.toNat < 128) :
    (cs.map Char.toUInt8).map Char.ofUInt8 = cs := by
  rw [List.map_map]
  refine (List.map_congr_left ?_).trans (List.map_id cs)
  intro c hc
  exact ofUInt8_toUInt8 (h c hc)

/-- Bytes of ASCII are those of the text that has them as its characters. -/
theorem ofString_map_ofUInt8 {b : Bytes} (h : ∀ x ∈ b, x.toNat < 128) :
    ofString (String.ofList (b.map Char.ofUInt8)) = b := by
  have hascii : ∀ c ∈ b.map Char.ofUInt8, c.toNat < 128 := by
    intro c hc
    obtain ⟨x, hx, rfl⟩ := List.mem_map.mp hc
    exact h x hx
  rw [ofString_of_ascii hascii, List.map_map]
  refine (List.map_congr_left ?_).trans (List.map_id b)
  intro x _
  exact UInt8.ofNat_toNat

end Bytes

end ProposerBook
