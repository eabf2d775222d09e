/-
Pairs of texts go through a query unchanged.

Every byte of a text is written in characters that no delimiter is among: it stands for itself, or
is a plus sign, or an escape.  So what stands between the delimiters is what was put there, and
byte by byte it is read back; a plus sign or a percent sign of the text is itself escaped, and none
that is read was one before.  Since it goes by bytes, it does not matter how many of them make up
a character.
-/
import ProposerBook.Proofs.Outcome
import ProposerBook.Proofs.Text.Split
import ProposerBook.Proofs.Url.PercentEncoding
import ProposerBook.Url.FormEncoding

namespace ProposerBook

namespace PercentEncoding

theorem decode_cons {b : UInt8} (other : b ≠ percent) (rest : Bytes) :
    decode (b :: rest) = b :: decode rest := by
  match rest with
  | [] => rfl
  | [_] => rfl
  | _ :: _ :: _ => rw [decode, if_neg other]

theorem digitValue?_digit {n : Nat} (h : n < 16) :
    Hex.digitValue? (Char.ofNat (digit n).toUInt8.toNat) = some n := by
  have hall : ∀ n : Fin 16, Hex.digitValue? (Char.ofNat (digit n.val).toUInt8.toNat) =
      some n.val := by decide
  exact hall ⟨n, h⟩

/-- An escape is read as the byte that it is for. -/
theorem decode_escape (b : UInt8) (rest : Bytes) :
    decode ((escape b).map Char.toUInt8 ++ rest) = b :: decode rest := by
  have hb := b.toNat_lt
  have hbyte : byte? (digit (b.toNat / 16)).toUInt8 (digit (b.toNat % 16)).toUInt8 = some b := by
    have hsum : UInt8.ofNat (16 * (b.toNat / 16) + b.toNat % 16) = b := by
      rw [Nat.div_add_mod, UInt8.ofNat_toNat]
    unfold byte?
    rw [digitValue?_digit (by omega), digitValue?_digit (by omega)]
    exact congrArg some hsum
  have hescape : (escape b).map Char.toUInt8 ++ rest = percent ::
      (digit (b.toNat / 16)).toUInt8 :: (digit (b.toNat % 16)).toUInt8 :: rest := rfl
  rw [hescape, decode, if_pos rfl, hbyte]

end PercentEncoding

namespace FormEncoding

open PercentEncoding (decode percent)

/-! ### Bytes -/

/-- What stands between pairs, and between a name and its value. -/
def marks : List Char := ['&', '=']

/-- What holds of the bytes one by one holds of every byte. -/
theorem byte_forall {P : UInt8 → Prop} (each : ∀ n : Fin 256, P (UInt8.ofNat n.val)) (b : UInt8) :
    P b := by
  have hb := each ⟨b.toNat, b.toNat_lt⟩
  rwa [UInt8.ofNat_toNat] at hb

/-- A plus sign stands for a space. -/
def unplus (c : Char) : Char := if c = '+' then ' ' else c

/-- What a byte is written in is ASCII, and no mark is in it. -/
theorem mem_encodeByte {b : UInt8} {c : Char} (h : c ∈ encodeByte b) :
    c.toNat < 128 ∧ c ∉ marks := by
  have hall : ∀ b, (encodeByte b).all (fun c => decide (c.toNat < 128 ∧ c ∉ marks)) = true :=
    byte_forall (by decide +kernel)
  exact of_decide_eq_true (List.all_eq_true.mp (hall b) c h)

/-- The only plus sign is the one for a space. -/
theorem map_unplus_encodeByte : ∀ b, (encodeByte b).map unplus =
    if isPlain b then [Char.ofUInt8 b] else if b = 0x20 then [' '] else
      PercentEncoding.escape b :=
  byte_forall (by decide +kernel)

/-- **A byte is read back**, whatever comes behind it. -/
theorem decode_encodeByte (b : UInt8) (rest : Bytes) :
    decode (((encodeByte b).map unplus).map Char.toUInt8 ++ rest) = b :: decode rest := by
  rw [map_unplus_encodeByte]
  split
  · rename_i hplain
    have hother : b ≠ percent := by
      rintro rfl
      exact absurd hplain (by decide)
    have hbyte : (Char.ofUInt8 b).toUInt8 = b := UInt8.ofNat_toNat
    rw [List.map_singleton, hbyte, List.singleton_append, PercentEncoding.decode_cons hother]
  · split
    · rename_i hspace
      subst hspace
      exact PercentEncoding.decode_cons (by decide) rest
    · exact PercentEncoding.decode_escape b rest

/-! ### Texts -/

theorem mem_encodeText {s : String} {c : Char} (h : c ∈ encodeText s) :
    c.toNat < 128 ∧ c ∉ marks := by
  obtain ⟨b, -, hc⟩ := List.mem_flatMap.mp h
  exact mem_encodeByte hc

theorem decode_flatMap (bs : Bytes) :
    decode (((bs.flatMap encodeByte).map unplus).map Char.toUInt8) = bs := by
  induction bs with
  | nil => rfl
  | cons b bs ih =>
    rw [List.flatMap_cons, List.map_append, List.map_append, decode_encodeByte, ih]

/-- A text is read back, whatever it is made up of. -/
theorem decodeText?_encodeText (s : String) : decodeText? (encodeText s) = some s := by
  have hascii : ∀ c ∈ (encodeText s).map unplus, c.toNat < 128 := by
    intro c hc
    obtain ⟨d, hd, rfl⟩ := List.mem_map.mp hc
    unfold unplus
    split
    · decide
    · exact (mem_encodeText hd).1
  show (decode (Bytes.ofString (String.ofList ((encodeText s).map unplus)))).toString? = some s
  rw [Bytes.ofString_of_ascii hascii]
  show (decode (((((Bytes.ofString s).flatMap encodeByte).map unplus)).map Char.toUInt8)).toString?
    = some s
  rw [decode_flatMap, Bytes.toString?_ofString]

/-! ### Pairs -/

theorem decodePair?_encodePair (p : String × String) : decodePair? (encodePair p) = some p := by
  have hname : ∀ c ∈ encodeText p.1, (c != '=') = true := by
    intro c hc
    have hmark := (mem_encodeText hc).2
    refine bne_iff_ne.mpr ?_
    rintro rfl
    exact hmark (by decide)
  have hfront : (encodePair p).takeWhile (· != '=') = encodeText p.1 := by
    unfold encodePair
    rw [List.takeWhile_append_of_pos hname, List.takeWhile_cons_of_neg (by decide), List.append_nil]
  have hback : (encodePair p).dropWhile (· != '=') = '=' :: encodeText p.2 := by
    unfold encodePair
    rw [List.dropWhile_append_of_pos hname, List.dropWhile_cons_of_neg (by decide)]
  unfold decodePair?
  rw [hfront, hback, List.drop_one, List.tail_cons, decodeText?_encodeText, decodeText?_encodeText]
  rfl

theorem ampersand_not_mem_encodePair (p : String × String) : '&' ∉ encodePair p := by
  have htext : ∀ s, '&' ∉ encodeText s := fun s h => (mem_encodeText h).2 (by decide)
  intro h
  rcases List.mem_append.mp h with h | h
  · exact htext p.1 h
  · rcases List.mem_cons.mp h with h | h
    · exact absurd h (by decide)
    · exact htext p.2 h

theorem encodePair_ne_nil (p : String × String) : encodePair p ≠ [] :=
  List.append_ne_nil_of_right_ne_nil _ (List.cons_ne_nil _ _)

/-- **Pairs of texts are read back from a query**, in their order and as often as they come. -/
theorem decode?_encode (ps : List (String × String)) : decode? (encode ps) = some ps := by
  cases ps with
  | nil => rfl
  | cons p ps =>
    have hsplit : (encode (p :: ps)).splitOn '&' = (p :: ps).map encodePair := by
      refine List.splitOn_intercalate '&' ?_ (by simp)
      intro piece hpiece hmark
      obtain ⟨q, -, rfl⟩ := List.mem_map.mp hpiece
      exact ampersand_not_mem_encodePair q hmark
    have hfilter : ((p :: ps).map encodePair).filter (fun piece => !piece.isEmpty) =
        (p :: ps).map encodePair := by
      refine List.filter_eq_self.mpr ?_
      intro piece hpiece
      obtain ⟨q, -, rfl⟩ := List.mem_map.mp hpiece
      simp [encodePair_ne_nil q]
    unfold decode?
    rw [hsplit, hfilter, mapM_eq_some_iff, List.forall₂_map_left_iff, List.forall₂_same]
    exact fun q _ => decodePair?_encodePair q

end FormEncoding

end ProposerBook
