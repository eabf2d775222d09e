/-
The compact text of a value spells the value.

Between quotes the text goes byte by byte, because a byte that has to be escaped is never a
part of a longer character: it is the quote, the backslash or a control.  A value is known by
its tree, and where its numbers have digits the text of the value is scanned as this tree.
-/
import ProposerBook.Json.Number
import ProposerBook.Proofs.Json.Scan
import ProposerBook.Proofs.Text.Utf8

namespace ProposerBook

namespace Json

/-! ### Texts between quotes -/

theorem utf8_of_ascii {n : Nat} (h : n < 0x80) : Scan.utf8 n = [UInt8.ofNat n] := by
  have hchar : (Char.ofNat n).toNat = n := by
    have hsmall : ∀ n < 0x80, (Char.ofNat n).toNat = n := by decide
    exact hsmall n h
  have hlt : ∀ c ∈ [Char.ofNat n], c.toNat < 128 := by
    intro c hc
    rw [List.mem_singleton.mp hc, hchar]
    exact h
  show Bytes.ofString (String.ofList [Char.ofNat n]) = _
  rw [Bytes.ofString_of_ascii hlt]
  show [UInt8.ofNat (Char.ofNat n).toNat] = _
  rw [hchar]

/-- The digits of a control, behind two zeros. -/
theorem fourDigits_control {n : Nat} (h : n < 0x20) :
    FourDigits (0x30 :: 0x30 :: (Hex.digits (UInt8.ofNat n)).map Char.toUInt8) n := by
  have hdigits : ∀ n < 0x20, ((0x30 :: 0x30 :: (Hex.digits (UInt8.ofNat n)).map Char.toUInt8).mapM
      fun x => Hex.digitValue? (Char.ofUInt8 x)) = some [0, 0, n / 16, n % 16] := by decide
  refine ⟨rfl, _, hdigits n h, ?_⟩
  show n = 16 * (16 * (16 * (16 * 0 + 0) + 0) + n / 16) + n % 16
  omega

theorem said_escape (c : UInt8) {text content : Bytes} (more : Says text content) :
    Says (Value.escape c ++ text) (c :: content) := by
  unfold Value.escape
  split
  · rename_i hc
    rcases hc with rfl | rfl
    · exact .letter (by decide) more
    · exact .letter (by decide) more
  rename_i hquoted
  split
  · subst c
    exact .letter (by decide) more
  split
  · subst c
    exact .letter (by decide) more
  split
  · subst c
    exact .letter (by decide) more
  split
  · subst c
    exact .letter (by decide) more
  split
  · subst c
    exact .letter (by decide) more
  split
  · rename_i hcontrol
    have hn : c.toNat < 0x20 := UInt8.lt_iff_toNat_lt.mp hcontrol
    have hdigits := fourDigits_control hn
    have hsays := Says.point hdigits (by omega) more
    rw [utf8_of_ascii (Nat.lt_trans hn (by decide)), UInt8.ofNat_toNat] at hsays
    exact hsays
  · rename_i hcontrol
    exact .plain ⟨fun hc => hquoted (Or.inl hc), fun hc => hquoted (Or.inr hc), hcontrol⟩ more

theorem said_flatMap_escape (b : Bytes) : Says (b.flatMap Value.escape) b := by
  induction b with
  | nil => exact .nil
  | cons c b ih => exact said_escape c ih

theorem quotedText_writeString (s : String) : QuotedText (.ok s) (Value.writeString s) :=
  .said (said_flatMap_escape (Bytes.ofString s))

/-! ### Values -/

/-- A number that can be written: it has digits wherever there must be some. -/
structure Literal.Sound (l : Literal) : Prop where
  whole : Digits l.whole
  alone : ∀ ds, l.whole = 0 :: ds → ds = []
  fraction : ∀ d ∈ l.fraction, d < 10
  exponent : ∀ negative ds, l.exponent? = some (negative, ds) → Digits ds

theorem fractionText_write {ds : List Nat} (h : ∀ d ∈ ds, d < 10) :
    FractionText ds (if ds.isEmpty then [] else 0x2e :: Value.writeDigits ds) := by
  cases ds with
  | nil => exact .none
  | cons d ds => exact .some ⟨List.cons_ne_nil d ds, h⟩

theorem exponentText_write {x : Option (Bool × List Nat)} :
    (∀ negative ds, x = some (negative, ds) → Digits ds) →
    ExponentText x (match x with
      | none => []
      | some (negative, ds) =>
        0x65 :: (if negative then [0x2d] else []) ++ Value.writeDigits ds) := by
  intro h
  cases x with
  | none => exact .none
  | some y =>
    obtain ⟨negative, ds⟩ := y
    cases negative with
    | false => exact .some (Or.inl rfl) (by decide) (h false ds rfl)
    | true => exact .some (Or.inl rfl) (by decide) (h true ds rfl)

theorem numberText_writeNumber {l : Literal} (h : l.Sound) :
    NumberText l (Value.writeNumber l) := by
  unfold Value.writeNumber
  rw [List.append_assoc, List.append_assoc]
  exact .intro h.whole h.alone (fractionText_write h.fraction) (exponentText_write h.exponent)

mutual

/-- All numbers in a value can be written. -/
def Value.Sound : Value → Prop
  | .null | .bool _ | .string _ => True
  | .number l => l.Sound
  | .array vs => ItemsSound vs
  | .object es => EntriesSound es

def ItemsSound : List Value → Prop
  | [] => True
  | v :: vs => v.Sound ∧ ItemsSound vs

def EntriesSound : List (String × Value) → Prop
  | [] => True
  | (_, v) :: es => v.Sound ∧ EntriesSound es

end

theorem Spells.compact {t : Tree} {b : Bytes} (h : Spells (.value t) b) : Spells (.item t) b := by
  have hitem : Spells (.item t) ([] ++ (b ++ [])) := .item nofun h nofun
  rwa [List.append_nil] at hitem

theorem Spells.compactEntry {k : StringLiteral} {t : Tree} {key b : Bytes} (text : QuotedText k key)
    (h : Spells (.value t) b) : Spells (.entry k t) (key ++ 0x3a :: b) := by
  have hentry : Spells (.entry k t) ([] ++ (key ++ ([] ++ 0x3a :: b))) :=
    .entry nofun text nofun h.compact
  exact hentry

mutual

/-- **The text of a value spells the value.** -/
theorem spells_write : (v : Value) → v.Sound → Spells (.value (.ofValue v)) v.write
  | .null, _ => .null
  | .bool true, _ => .yes
  | .bool false, _ => .no
  | .number _, h => .number (numberText_writeNumber h)
  | .string s, _ => .string (quotedText_writeString s)
  | .array [], _ => .emptyArray (w := []) nofun
  | .array (v :: vs), h => .array (spells_writeItems (v :: vs) (List.cons_ne_nil v vs) h)
  | .object [], _ => .emptyObject (w := []) nofun
  | .object (e :: es), h => .object (spells_writeEntries (e :: es) (List.cons_ne_nil e es) h)

theorem spells_writeItems : (vs : List Value) → vs ≠ [] → ItemsSound vs →
    Spells (.items (treesOf vs)) (Value.writeItems vs)
  | [], h, _ => absurd rfl h
  | [v], _, h => .lastItem (spells_write v h.1).compact
  | v :: w :: vs, _, h => .moreItems (spells_write v h.1).compact
    (spells_writeItems (w :: vs) (List.cons_ne_nil w vs) h.2)

theorem spells_writeEntries : (es : List (String × Value)) → es ≠ [] → EntriesSound es →
    Spells (.entries (entriesOf es)) (Value.writeEntries es)
  | [], h, _ => absurd rfl h
  | [(k, v)], _, h => .lastEntry (.compactEntry (quotedText_writeString k) (spells_write v h.1))
  | (k, v) :: e :: es, _, h => by
    have hentry := Spells.compactEntry (quotedText_writeString k) (spells_write v h.1)
    have hmore := Spells.moreEntries hentry
      (spells_writeEntries (e :: es) (List.cons_ne_nil e es) h.2)
    rw [List.append_assoc] at hmore
    exact hmore

end

/-- What is written is scanned as what was written. -/
theorem scan_write {v : Value} (h : v.Sound) : scan v.write = ⟨.ofValue v, false⟩ :=
  scan_of_spells (spells_write v h).compact

/-! ### Numbers in decimal -/

theorem digit_of_isDigit {c : Char} (h : c.isDigit = true) : c.toNat - '0'.toNat < 10 := by
  have hc := Char.isDigit_iff_toNat.mp h
  have hzero : '0'.toNat = 48 := rfl
  have hnine : '9'.toNat = 57 := rfl
  omega

theorem ofDigits_natDigits (n : Nat) : Number.ofDigits (natDigits n) = n := by
  have hfold := Nat.ofDigitChars_ten_toDigits (n := n)
  rw [Nat.ofDigitChars_eq_foldl] at hfold
  unfold Number.ofDigits natDigits
  rw [List.foldl_map]
  simpa only [Nat.mul_comm 10] using hfold

theorem digits_natDigits (n : Nat) : Digits (natDigits n) := by
  refine ⟨?_, ?_⟩
  · intro hnil
    exact Nat.toDigits_ne_nil (List.map_eq_nil_iff.mp hnil)
  · intro d hd
    obtain ⟨c, hc, rfl⟩ := List.mem_map.mp hd
    exact digit_of_isDigit (Nat.isDigit_of_mem_toDigits (by decide) (by decide) hc)

/-- A zero stands in front only where the number is zero. -/
theorem natDigits_alone (n : Nat) (ds : List Nat) (h : natDigits n = 0 :: ds) : ds = [] := by
  induction n using Nat.strongRecOn generalizing ds with
  | ind n ih =>
    by_cases hn : n < 10
    · unfold natDigits at h
      rw [Nat.toDigits_of_lt_base hn] at h
      exact (List.cons.inj h).2.symm
    · -- The digits before the last one are those of a tenth, which is not zero.
      have htenth : natDigits (n / 10) ≠ [0] := by
        intro hzero
        have hvalue := ofDigits_natDigits (n / 10)
        rw [hzero] at hvalue
        have hn0 : 0 = n / 10 := hvalue
        omega
      have hbefore : natDigits n =
          natDigits (n / 10) ++ [(n % 10).digitChar.toNat - '0'.toNat] := by
        unfold natDigits
        rw [Nat.toDigits_of_base_le (by decide) (Nat.le_of_not_lt hn), List.map_append]
        rfl
      rw [hbefore] at h
      cases hdigits : natDigits (n / 10) with
      | nil => exact absurd hdigits (digits_natDigits (n / 10)).nonempty
      | cons d es =>
        rw [hdigits, List.cons_append] at h
        obtain ⟨rfl, -⟩ := List.cons.inj h
        have hes := ih (n / 10) (by omega) es hdigits
        rw [hes] at hdigits
        exact absurd hdigits htenth

theorem sound_nat (n : Nat) : (Value.nat n).Sound :=
  ⟨digits_natDigits n, natDigits_alone n, nofun, nofun⟩

/-- A word stands for itself. -/
theorem number_natDigits {n : Nat} (h : n < Word.bound) :
    Literal.number { negative := false, whole := natDigits n } = .ok (.natural n) := by
  unfold Literal.number
  dsimp only
  rw [ofDigits_natDigits]
  simp [h]

end Json

end ProposerBook
