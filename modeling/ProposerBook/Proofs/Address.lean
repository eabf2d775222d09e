/-
An address is read from every text that spells it, and from no other.

The forty digits may be in either case, `0x` may stand before them, and blanks may stand
around them where a text is trimmed first.  Of these texts the program writes one, the one
whose capitals are chosen by a hash.  Reading never looks at the case, so it does not matter
what the hash is.

Digits are counted over the bytes of a text.  Where they are all digits the text is ASCII, so
that its characters are these digits, and they can only be the ones of the address read.
-/
import ProposerBook.Address
import ProposerBook.Proofs.Text.Blank
import ProposerBook.Proofs.Text.Utf8

namespace ProposerBook

/-! ### Hexadecimal digits in either case -/

namespace Hex

theorem toLower_cases (c : Char) : c.toLower = c ∨ (65 ≤ c.toNat ∧ c.toNat ≤ 90) := by
  by_cases h : c.val ≥ 'A'.val ∧ c.val ≤ 'Z'.val
  · exact Or.inr ⟨UInt32.le_iff_toNat_le.mp h.1, UInt32.le_iff_toNat_le.mp h.2⟩
  · exact Or.inl (dif_neg h)

/-- The case of a digit does not matter. -/
theorem digitValue?_toLower (c : Char) : digitValue? c.toLower = digitValue? c := by
  rcases toLower_cases c with hsame | ⟨hlow, hhigh⟩
  · rw [hsame]
  · have hcapitals : ∀ k < 26, digitValue? (Char.ofNat (65 + k)).toLower
        = digitValue? (Char.ofNat (65 + k)) := by decide
    have hk := hcapitals (c.toNat - 65) (by omega)
    rwa [Nat.add_sub_cancel' hlow, Char.ofNat_toNat] at hk

theorem decodeChars?_map_toLower : (cs : List Char) →
    decodeChars? (cs.map Char.toLower) = decodeChars? cs
  | [] => rfl
  | [_] => rfl
  | hi :: lo :: cs => by
    rw [List.map_cons, List.map_cons, decodeChars?, decodeChars?, digitValue?_toLower,
      digitValue?_toLower, decodeChars?_map_toLower cs]

/-- Digits are ASCII and no blanks. -/
theorem ascii_of_digit {c : Char} (h : (digitValue? c).isSome = true) : c.toNat < 128 := by
  unfold digitValue? at h
  split at h
  · rename_i hc
    exact Nat.lt_of_le_of_lt (UInt32.le_iff_toNat_le.mp hc.2) (by decide)
  · split at h
    · rename_i hc
      exact Nat.lt_of_le_of_lt (UInt32.le_iff_toNat_le.mp hc.2) (by decide)
    · split at h
      · rename_i hc
        exact Nat.lt_of_le_of_lt (UInt32.le_iff_toNat_le.mp hc.2) (by decide)
      · cases h

theorem isBlank_of_digit {c : Char} (h : (digitValue? c).isSome = true) :
    Text.isBlank c = false := by
  have hascii : ∀ n < 128, (digitValue? (Char.ofNat n)).isSome = true →
      Text.isBlank (Char.ofNat n) = false := by decide
  have hc := hascii c.toNat (ascii_of_digit h)
  rw [Char.ofNat_toNat] at hc
  exact hc h

/-! ### Written bytes -/

theorem length_encodeChars (b : Bytes) : (encodeChars b).length = 2 * b.length := by
  induction b with
  | nil => rfl
  | cons x xs ih =>
    show (encodeChars xs).length + 1 + 1 = 2 * (xs.length + 1)
    omega

theorem exists_digit_of_mem {b : Bytes} {c : Char} (h : c ∈ encodeChars b) :
    ∃ n < 16, c = digit n := by
  obtain ⟨x, -, hc⟩ := List.mem_flatMap.mp h
  have hx := x.toNat_lt
  rcases List.mem_cons.mp hc with rfl | hc
  · exact ⟨x.toNat / 16, by omega, rfl⟩
  · exact ⟨x.toNat % 16, by omega, List.mem_singleton.mp hc⟩

/-- Small letters stay what they are, and come back from capitals. -/
theorem toLower_of_mem {b : Bytes} {c : Char} (h : c ∈ encodeChars b) :
    c.toLower = c ∧ c.toUpper.toLower = c := by
  have hdigits : ∀ n < 16, (digit n).toLower = digit n ∧ (digit n).toUpper.toLower = digit n := by
    decide
  obtain ⟨n, hn, rfl⟩ := exists_digit_of_mem h
  exact hdigits n hn

/-- The digits of `b`, each in some case. -/
def SpelledBy (b : Bytes) (cs : List Char) : Prop := cs.map Char.toLower = encodeChars b

namespace SpelledBy

variable {b : Bytes} {cs : List Char}

theorem decode (h : SpelledBy b cs) : decodeChars? cs = some b := by
  rw [← decodeChars?_map_toLower, h, decodeChars?_encodeChars]

theorem length (h : SpelledBy b cs) : cs.length = 2 * b.length := by
  rw [← length_encodeChars, ← h, List.length_map]

theorem digit (h : SpelledBy b cs) {c : Char} (hc : c ∈ cs) : (digitValue? c).isSome = true := by
  have hmem : c.toLower ∈ encodeChars b := by
    rw [← h]
    exact List.mem_map_of_mem hc
  obtain ⟨n, hn, hdigit⟩ := exists_digit_of_mem hmem
  rw [← digitValue?_toLower, hdigit, digitValue?_digit hn]
  rfl

end SpelledBy

/-! ### Digits that are read -/

/-- A digit is, up to its case, the one that is written for its number. -/
theorem digit_of_digitValue? {c : Char} {n : Nat} (h : digitValue? c = some n) :
    n < 16 ∧ c.toLower = digit n := by
  have hascii : ∀ k < 128, ∀ v, digitValue? (Char.ofNat k) = some v →
      v < 16 ∧ (Char.ofNat k).toLower = digit v := by decide
  have hc := ascii_of_digit (Option.isSome_of_mem h)
  rw [← Char.ofNat_toNat c] at h ⊢
  exact hascii c.toNat hc n h

theorem digits_ofNat {hi lo : Nat} (hhi : hi < 16) (hlo : lo < 16) :
    digits (UInt8.ofNat (16 * hi + lo)) = [digit hi, digit lo] := by
  have hbyte : (UInt8.ofNat (16 * hi + lo)).toNat = 16 * hi + lo := by
    rw [UInt8.toNat_ofNat']
    omega
  unfold digits
  rw [hbyte, show (16 * hi + lo) / 16 = hi by omega, show (16 * hi + lo) % 16 = lo by omega]

/-- Digits spell the bytes that they are read as. -/
theorem spelledBy_of_decode : {cs : List Char} → {b : Bytes} → decodeChars? cs = some b →
    SpelledBy b cs
  | [], b, h => by
    cases h
    rfl
  | [_], _, h => by cases h
  | hi :: lo :: cs, b, h => by
    simp only [decodeChars?, Option.bind_eq_bind, Option.bind_eq_some_iff] at h
    obtain ⟨x, hx, y, hy, bs, hbs, hb⟩ := h
    cases hb
    obtain ⟨hx16, hhi⟩ := digit_of_digitValue? hx
    obtain ⟨hy16, hlo⟩ := digit_of_digitValue? hy
    have hmore : cs.map Char.toLower = encodeChars bs := spelledBy_of_decode hbs
    show hi.toLower :: lo.toLower :: cs.map Char.toLower = digits _ ++ encodeChars bs
    rw [digits_ofNat hx16 hy16, hhi, hlo, hmore]
    rfl

end Hex

/-! ### Addresses -/

namespace Address

/-- What may stand before the digits. -/
def marks : List (List Char) := [[], ['0', 'x'], ['0', 'X']]

/-- A text that stands for an address: its digits, each in either case, perhaps with `0x` before
them, and perhaps with blanks around. -/
def Spells (s : String) (a : Address) : Prop :=
  ∃ before mark digits after, s.toList = before ++ (mark ++ digits) ++ after ∧
    (∀ c ∈ before, Text.isBlank c = true) ∧ mark ∈ marks ∧ Hex.SpelledBy a.bytes digits ∧
    ∀ c ∈ after, Text.isBlank c = true

theorem dropPrefix_of_digits {cs : List Char} (h : ∀ c ∈ cs, (Hex.digitValue? c).isSome = true) :
    dropPrefix cs = cs := by
  unfold dropPrefix
  split
  · have hx := h 'x' (List.mem_cons_of_mem _ List.mem_cons_self)
    exact absurd hx (by decide)
  · have hx := h 'X' (List.mem_cons_of_mem _ List.mem_cons_self)
    exact absurd hx (by decide)
  · rfl

theorem dropPrefix_mark {mark digits : List Char} (hmark : mark ∈ marks)
    (h : ∀ c ∈ digits, (Hex.digitValue? c).isSome = true) :
    dropPrefix (mark ++ digits) = digits := by
  rcases List.mem_cons.mp hmark with rfl | hmark
  · exact dropPrefix_of_digits h
  · rcases List.mem_cons.mp hmark with rfl | hmark
    · rfl
    · rw [List.mem_singleton.mp hmark]
      rfl

theorem firstNonDigit_of_digits {b : Bytes} (start : Nat)
    (h : ∀ x ∈ b, (Hex.digitValue? (Char.ofUInt8 x)).isSome = true) :
    firstNonDigit start b = none := by
  induction b generalizing start with
  | nil => rfl
  | cons x xs ih =>
    unfold firstNonDigit
    rw [if_pos (h x List.mem_cons_self)]
    exact ih _ fun y hy => h y (List.mem_cons_of_mem _ hy)

/-- Digits in either case are read, with a mark or without. -/
theorem parse_of_digits {a : Address} {mark digits : List Char} (hmark : mark ∈ marks)
    (h : Hex.SpelledBy a.bytes digits) : parse (String.ofList (mark ++ digits)) = .ok a := by
  have hdigit : ∀ c ∈ digits, (Hex.digitValue? c).isSome = true := fun c hc => h.digit hc
  have hascii : ∀ c ∈ digits, c.toNat < 128 := fun c hc => Hex.ascii_of_digit (hdigit c hc)
  have hlength : (digits.map Char.toUInt8).length = 2 * size := by
    rw [List.length_map, h.length, a.length_eq]
    rfl
  have hclean : firstNonDigit 0 (digits.map Char.toUInt8) = none := by
    refine firstNonDigit_of_digits 0 ?_
    intro x hx
    obtain ⟨c, hc, rfl⟩ := List.mem_map.mp hx
    rw [Bytes.ofUInt8_toUInt8 (hascii c hc)]
    exact hdigit c hc
  have hread : (Hex.decodeChars? digits).bind ofBytes? = some a := by
    rw [h.decode]
    exact dif_pos a.length_eq
  unfold parse
  simp only [String.toList_ofList, dropPrefix_mark hmark hdigit, Bytes.ofString_of_ascii hascii,
    hlength, hclean, Bytes.map_ofUInt8_of_ascii hascii, hread]
  rfl

/-- **Every text of an address is read as this address**, blanks aside. -/
theorem Spells.parse_trim {s : String} {a : Address} (h : Spells s a) :
    parse (Text.trim s) = .ok a := by
  obtain ⟨before, mark, digits, after, hs, hbefore, hmark, hdigits, hafter⟩ := h
  have hclear : ∀ c ∈ mark ++ digits, Text.isBlank c = false := by
    intro c hc
    rcases List.mem_append.mp hc with hc | hc
    · have hmarks : (marks.all fun m => m.all fun c => !Text.isBlank c) = true := by decide
      have hplain := List.all_eq_true.mp (List.all_eq_true.mp hmarks mark hmark) c hc
      exact (Bool.not_eq_true' _).mp hplain
    · exact Hex.isBlank_of_digit (hdigits.digit hc)
  unfold Text.trim
  rw [hs, Text.trimChars_append hbefore hclear hafter]
  exact parse_of_digits hmark hdigits

/-! ### Texts that are read -/

theorem exists_dropPrefix (cs : List Char) : ∃ mark ∈ marks, cs = mark ++ dropPrefix cs := by
  unfold dropPrefix
  split
  · exact ⟨['0', 'x'], by decide, rfl⟩
  · exact ⟨['0', 'X'], by decide, rfl⟩
  · exact ⟨[], by decide, rfl⟩

theorem digits_of_firstNonDigit {b : Bytes} {start : Nat} (h : firstNonDigit start b = none) :
    ∀ x ∈ b, (Hex.digitValue? (Char.ofUInt8 x)).isSome = true := by
  induction b generalizing start with
  | nil => nofun
  | cons x b ih =>
    unfold firstNonDigit at h
    by_cases hx : (Hex.digitValue? (Char.ofUInt8 x)).isSome = true
    · rw [if_pos hx] at h
      exact List.forall_mem_cons.mpr ⟨hx, ih h⟩
    · simp [if_neg hx] at h

/-- What is read as an address is its digits behind a mark. -/
theorem spelled_of_parse {s : String} {a : Address} (h : parse s = .ok a) :
    ∃ mark digits, s.toList = mark ++ digits ∧ mark ∈ marks ∧ Hex.SpelledBy a.bytes digits := by
  obtain ⟨mark, hmark, hs⟩ := exists_dropPrefix s.toList
  refine ⟨mark, dropPrefix s.toList, hs, hmark, ?_⟩
  generalize hcs : dropPrefix s.toList = cs at *
  unfold parse at h
  simp only [hcs] at h
  split at h
  · cases h
  split at h
  · cases h
  split at h
  · cases h
  rename_i hclean
  have hdigits := digits_of_firstNonDigit hclean
  have hascii : ∀ c ∈ cs, c.toNat < 128 := by
    refine Bytes.ascii_of_ofString ?_
    intro x hx
    exact Hex.ascii_of_digit (hdigits x hx)
  rw [Bytes.ofString_of_ascii hascii, Bytes.map_ofUInt8_of_ascii hascii] at h
  split at h
  · rename_i a' hread
    cases h
    obtain ⟨b, hb, hsize⟩ := Option.bind_eq_some_iff.mp hread
    unfold ofBytes? at hsize
    split at hsize
    · cases hsize
      exact Hex.spelledBy_of_decode hb
    · cases hsize
  · cases h

/-- **The texts of an address are those that are read as it**, blanks aside. -/
theorem parse_trim_eq_ok_iff {s : String} {a : Address} :
    parse (Text.trim s) = .ok a ↔ Spells s a := by
  refine ⟨?_, Spells.parse_trim⟩
  intro h
  obtain ⟨mark, digits, htrim, hmark, hdigits⟩ := spelled_of_parse h
  obtain ⟨before, after, hs, hbefore, hafter⟩ := Text.exists_trimChars s.toList
  unfold Text.trim at htrim
  rw [String.toList_ofList] at htrim
  rw [htrim] at hs
  exact ⟨before, mark, digits, after, hs, hbefore, hmark, hdigits, hafter⟩

/-- A text stands for one address at most. -/
theorem Spells.unique {s : String} {a c : Address} (ha : Spells s a) (hc : Spells s c) : a = c := by
  have hsame := ha.parse_trim.symm.trans hc.parse_trim
  simpa using hsame

/-- A text that is too short spells no address. -/
theorem not_spells_of_short {s : String} {a : Address} (short : s.toList.length < 40) :
    ¬Spells s a := by
  rintro ⟨before, mark, digits, after, hs, -, -, hdigits, -⟩
  have hlength := hdigits.length
  rw [a.length_eq] at hlength
  rw [hs] at short
  simp only [List.length_append] at short
  omega

/-! ### The text that is written -/

theorem spelledBy_checksumDigits (a : Address) : Hex.SpelledBy a.bytes a.checksumDigits := by
  unfold Hex.SpelledBy checksumDigits
  refine List.ext_getElem (by simp) ?_
  intro i hi hi'
  have hlower := Hex.toLower_of_mem (List.getElem_mem hi')
  rw [List.getElem_map, List.getElem_mapIdx]
  split
  · exact hlower.2
  · exact hlower.1

theorem toText_eq (a : Address) : a.toText = String.ofList (['0', 'x'] ++ a.checksumDigits) := rfl

/-- **The text of an address is read back.** -/
theorem parse_toText (a : Address) : parse a.toText = .ok a := by
  rw [toText_eq]
  exact parse_of_digits (by decide) (spelledBy_checksumDigits a)

theorem spells_toText (a : Address) : Spells a.toText a := by
  refine ⟨[], ['0', 'x'], a.checksumDigits, [], ?_, nofun, by decide,
    spelledBy_checksumDigits a, nofun⟩
  rw [toText_eq, String.toList_ofList, List.append_nil, List.nil_append]

end Address

end ProposerBook
