/-
Texts are in the order of their bytes.

Collections keep texts in the order of their code points, which is the order that comes
with them.  What is promised outside is the order of their UTF-8 bytes.  The two are one:
of two characters the one with the smaller code point has the smaller bytes, and already
so within the bytes of both, so whatever follows does not matter.  In a form of the same
length the digits of the code point decide from the highest one down, and a shorter form
begins with a smaller byte than any longer one.
-/
import Mathlib.Data.String.Basic
import ProposerBook.Proofs.Text.Utf8

namespace ProposerBook

namespace Bytes

theorem ofNat_lt_ofNat {m n : Nat} (hm : m < 256) (hn : n < 256) :
    UInt8.ofNat m < UInt8.ofNat n ↔ m < n := by
  rw [UInt8.lt_iff_toNat_lt, UInt8.toNat_ofNat', UInt8.toNat_ofNat']
  omega

theorem ofNat_eq_ofNat {m n : Nat} (hm : m < 256) (hn : n < 256) :
    UInt8.ofNat m = UInt8.ofNat n ↔ m = n := by
  rw [← UInt8.toNat_inj, UInt8.toNat_ofNat', UInt8.toNat_ofNat']
  omega

/-- **The smaller character has the smaller bytes**, whatever follows. -/
theorem utf8EncodeChar_append_lt {c d : Char} (h : c < d) (xs ys : Bytes) :
    String.utf8EncodeChar c ++ xs < String.utf8EncodeChar d ++ ys := by
  have hlt : c.val.toNat < d.val.toNat := UInt32.lt_iff_toNat_lt.mp (Char.lt_def.mp h)
  have hmax : d.val.toNat < 0x110000 := by
    rcases d.valid with hd | ⟨-, hd⟩
    · omega
    · exact hd
  unfold String.utf8EncodeChar
  generalize c.val.toNat = m at hlt ⊢
  generalize d.val.toNat = n at hlt hmax ⊢
  simp only
  -- The digits to base 64, from the lowest one up.
  have hsecond : ∀ k, k / 4096 = k / 64 / 64 := fun k => (Nat.div_div_eq_div_mul k 64 64).symm
  have hthird : ∀ k, k / 262144 = k / 64 / 64 / 64 := by
    intro k
    rw [Nat.div_div_eq_div_mul, Nat.div_div_eq_div_mul]
  split_ifs <;>
    simp (disch := omega) only [List.cons_append, List.nil_append, List.cons_lt_cons_iff,
      ofNat_lt_ofNat, ofNat_eq_ofNat, hsecond, hthird]
  all_goals omega

theorem flatMap_utf8EncodeChar_lt {cs ds : List Char} (h : cs < ds) :
    cs.flatMap String.utf8EncodeChar < ds.flatMap String.utf8EncodeChar := by
  induction cs generalizing ds with
  | nil =>
    cases ds with
    | nil => exact absurd h (List.lt_irrefl _)
    | cons d ds =>
      obtain ⟨b, bs, hbytes⟩ := List.exists_cons_of_ne_nil (String.utf8EncodeChar_ne_nil (c := d))
      rw [List.flatMap_nil, List.flatMap_cons, hbytes]
      exact List.nil_lt_cons b _
  | cons c cs ih =>
    cases ds with
    | nil => exact absurd h (List.not_lt_nil _)
    | cons d ds =>
      rw [List.flatMap_cons, List.flatMap_cons]
      rcases List.cons_lt_cons_iff.mp h with hcd | ⟨rfl, hrest⟩
      · exact utf8EncodeChar_append_lt hcd _ _
      · exact List.append_left_lt (ih hrest)

/-- **A text comes before another just if its bytes do.** -/
theorem ofString_lt_iff {s t : String} : ofString s < ofString t ↔ s < t := by
  have hmono : ∀ {u v : String}, u < v → ofString u < ofString v := by
    intro u v h
    rw [ofString_eq_flatMap, ofString_eq_flatMap]
    exact flatMap_utf8EncodeChar_lt (String.lt_iff_toList_lt.mp h)
  refine ⟨?_, hmono⟩
  intro h
  rcases lt_trichotomy s t with hst | rfl | hts
  · exact hst
  · exact absurd h (List.lt_irrefl _)
  · exact absurd h (List.lt_asymm (hmono hts))

theorem ofString_lt_of_compare {s t : String} (h : compare s t = .lt) :
    ofString s < ofString t :=
  ofString_lt_iff.mpr (compareOfLessAndEq_eq_lt.mp h)

end Bytes

end ProposerBook
