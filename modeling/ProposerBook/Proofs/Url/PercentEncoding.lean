/-
What is escaped stays as it is.

Escapes are written in a percent sign and digits.  In a part of a URL where these stand for
themselves, what is written is ASCII and has nothing in it that would have to be escaped, so that
escaping it again changes nothing.  Where there is no percent sign, there is nothing to decode.
-/
import Mathlib.Data.List.Basic
import ProposerBook.Proofs.Text.Utf8
import ProposerBook.Url.PercentEncoding

namespace ProposerBook

/-- What makes of every character this character makes of a text this text. -/
theorem flatMap_eq_self {f : Char → List Char} {cs : List Char} (h : ∀ c ∈ cs, f c = [c]) :
    cs.flatMap f = cs := by
  rw [List.flatMap_congr h]
  exact List.flatMap_singleton' cs

/-- What holds of the characters below a bound, one by one, holds of every character below it. -/
@[elab_as_elim]
theorem char_of_lt {motive : Char → Prop} {bound : Nat} (c : Char) (below : c.toNat < bound)
    (each : ∀ n < bound, motive (Char.ofNat n)) : motive c :=
  Char.ofNat_toNat c ▸ each c.toNat below

namespace PercentEncoding

/-- A character that stands for itself. -/
def Stands (escaped : Char → Bool) (c : Char) : Prop := c.toNat < 0x80 ∧ escaped c = false

instance (escaped : Char → Bool) (c : Char) : Decidable (Stands escaped c) :=
  inferInstanceAs (Decidable (_ ∧ _))

/-- The characters that escapes are written in. -/
def escapeChars : List Char := '%' :: (List.range 16).map digit

theorem mem_escapeChars_of_mem_escape {b : UInt8} {c : Char} (h : c ∈ escape b) :
    c ∈ escapeChars := by
  have hdigit : ∀ n < 16, digit n ∈ escapeChars := by
    intro n hn
    exact List.mem_cons_of_mem _ (List.mem_map_of_mem (List.mem_range.mpr hn))
  have hb := b.toNat_lt
  unfold escape at h
  rcases List.mem_cons.mp h with rfl | h
  · exact List.mem_cons_self
  · rcases List.mem_cons.mp h with rfl | h
    · exact hdigit _ (by omega)
    · rw [List.mem_singleton.mp h]
      exact hdigit _ (by omega)

/-- A character of what is written stood for itself, or is one of an escape. -/
theorem mem_encode {escaped : Char → Bool} {cs : List Char} {c : Char}
    (h : c ∈ encode escaped cs) : (c ∈ cs ∧ Stands escaped c) ∨ c ∈ escapeChars := by
  obtain ⟨d, hd, hc⟩ := List.mem_flatMap.mp h
  unfold encodeChar at hc
  by_cases hstands : (d.toNat < 0x80 && !escaped d) = true
  · rw [if_pos hstands, List.mem_singleton] at hc
    rw [Bool.and_eq_true, decide_eq_true_eq, Bool.not_eq_true'] at hstands
    rw [hc]
    exact Or.inl ⟨hd, hstands⟩
  · rw [if_neg hstands] at hc
    obtain ⟨b, -, hb⟩ := List.mem_flatMap.mp hc
    exact Or.inr (mem_escapeChars_of_mem_escape hb)

/-- **What is written stands for itself**, if escapes do. -/
theorem stands_of_mem_encode {escaped : Char → Bool} (escapes : escapeChars.Forall (Stands escaped))
    {cs : List Char} {c : Char} (h : c ∈ encode escaped cs) : Stands escaped c := by
  rcases mem_encode h with ⟨-, hstands⟩ | hescape
  · exact hstands
  · exact List.forall_iff_forall_mem.mp escapes c hescape

/-- What stands for itself is left alone. -/
theorem encode_of_stands {escaped : Char → Bool} {cs : List Char}
    (h : ∀ c ∈ cs, Stands escaped c) : encode escaped cs = cs := by
  refine flatMap_eq_self ?_
  intro c hc
  obtain ⟨hascii, hplain⟩ := h c hc
  unfold encodeChar
  rw [if_pos (by simp [hascii, hplain])]

/-- Where there is no percent sign, there is nothing to decode. -/
theorem decode_of_plain {b : Bytes} (h : ∀ x ∈ b, x ≠ percent) : decode b = b := by
  induction b using decode.induct with
  | case1 hi lo rest => exact absurd rfl (h percent List.mem_cons_self)
  | case2 hi lo rest => exact absurd rfl (h percent List.mem_cons_self)
  | case3 b hi lo rest hb ih =>
    rw [decode, if_neg hb, ih fun x hx => h x (List.mem_cons_of_mem b hx)]
  | case4 bs short =>
    unfold decode
    split
    · exact absurd rfl (short _ _ _ _)
    · rfl

theorem decode_ofString {cs : List Char} (ascii : ∀ c ∈ cs, c.toNat < 128) (plain : '%' ∉ cs) :
    decode (Bytes.ofString (String.ofList cs)) = Bytes.ofString (String.ofList cs) := by
  refine decode_of_plain ?_
  rw [Bytes.ofString_of_ascii ascii]
  intro x hx hpercent
  obtain ⟨c, hc, rfl⟩ := List.mem_map.mp hx
  have hback := Bytes.ofUInt8_toUInt8 (ascii c hc)
  rw [hpercent] at hback
  have hchar : '%' = c := hback
  exact plain (hchar ▸ hc)

end PercentEncoding

end ProposerBook
