/-
IPv6 addresses are read back.

Pieces are written without a colon, so the colons of the text are those between pieces, and two in
a row stand only where a run of zero pieces has been left out.  What is written before and after
them are the other pieces, and as many zeros as are missing are put in again.
-/
import Mathlib.Data.List.TakeWhile
import ProposerBook.Proofs.Text.Split
import ProposerBook.Proofs.Url.Ipv4
import ProposerBook.Url.Ipv6

namespace ProposerBook

namespace Ipv6

/-! ### Pieces -/

theorem exists_digitChar_of_mem_pieceChars {p : UInt16} {c : Char} (hc : c ∈ pieceChars p) :
    ∃ d < 16, c = Nat.digitChar d :=
  Ipv4.exists_digitChar_of_mem_toDigits (by decide) hc

theorem plain_of_mem_pieceChars {p : UInt16} {c : Char} (hc : c ∈ pieceChars p) :
    c ≠ ':' ∧ c ≠ '.' := by
  have hdigits : ∀ d < 16, Nat.digitChar d ≠ ':' ∧ Nat.digitChar d ≠ '.' := by decide
  obtain ⟨d, hd, rfl⟩ := exists_digitChar_of_mem_pieceChars hc
  exact hdigits d hd

theorem pieceChars_ne_nil (p : UInt16) : pieceChars p ≠ [] := Nat.toDigits_ne_nil

theorem piece?_pieceChars (p : UInt16) : piece? (pieceChars p) = some p := by
  have hshort : (pieceChars p).length ≤ 4 :=
    (Nat.length_toDigits_le_iff (by decide) (by decide)).mpr p.toNat_lt
  have hsome : (pieceChars p).isEmpty = false := by
    rw [List.isEmpty_eq_false_iff]
    exact pieceChars_ne_nil p
  unfold piece?
  rw [if_neg (by simp [hsome, hshort])]
  show (Ipv4.readFrom? 16 0 (Nat.toDigits 16 p.toNat)).map UInt16.ofNat = some p
  rw [Ipv4.readFrom?_toDigits (by decide) (by decide), Option.map_some, UInt16.ofNat_toNat]

theorem pieces?_map_pieceChars (ps : List UInt16) : pieces? (ps.map pieceChars) = some ps := by
  induction ps with
  | nil => rfl
  | cons p ps ih =>
    cases ps with
    | nil =>
      have hdots : (pieceChars p).contains '.' = false := by
        rw [← Bool.not_eq_true, List.contains_iff_mem]
        exact fun hdot => (plain_of_mem_pieceChars hdot).2 rfl
      show (if (pieceChars p).contains '.' then dotted? (pieceChars p)
        else (piece? (pieceChars p)).map ([·])) = _
      rw [hdots, piece?_pieceChars]
      rfl
    | cons q qs =>
      show ((piece? (pieceChars p)).bind fun x =>
        (pieces? ((q :: qs).map pieceChars)).bind fun xs => some (x :: xs)) = _
      rw [piece?_pieceChars, ih]
      rfl

theorem mapM_piece?_map_pieceChars (ps : List UInt16) :
    (ps.map pieceChars).mapM piece? = some ps := by
  rw [mapM_eq_some_iff, List.forall₂_map_left_iff, List.forall₂_same]
  exact fun p _ => piece?_pieceChars p

/-! ### Colons -/

theorem joined_cons_cons (p q : UInt16) (ps : List UInt16) :
    joined (p :: q :: ps) = pieceChars p ++ ':' :: joined (q :: ps) := by
  unfold joined
  rw [List.map_cons, List.map_cons, List.intercalate_cons_cons, List.append_assoc]
  rfl

theorem joined_singleton (p : UInt16) : joined [p] = pieceChars p :=
  List.intercalate_singleton

theorem exists_joined_cons (p : UInt16) (ps : List UInt16) :
    ∃ c cs, joined (p :: ps) = c :: cs ∧ c ≠ ':' := by
  obtain ⟨c, cs, hcs⟩ := List.exists_cons_of_ne_nil (pieceChars_ne_nil p)
  have hc : c ≠ ':' := (plain_of_mem_pieceChars (hcs ▸ List.mem_cons_self)).1
  cases ps with
  | nil => exact ⟨c, cs, by rw [joined_singleton, hcs], hc⟩
  | cons q qs => exact ⟨c, _, by rw [joined_cons_cons, hcs, List.cons_append], hc⟩

/-- The parts of what is joined are the pieces. -/
theorem parts_joined (ps : List UInt16) : parts (joined ps) = ps.map pieceChars := by
  cases ps with
  | nil => rfl
  | cons p ps =>
    obtain ⟨c, cs, hcs, -⟩ := exists_joined_cons p ps
    unfold parts
    rw [if_neg (by simp [hcs])]
    refine List.splitOn_intercalate ':' ?_ (List.cons_ne_nil _ _)
    intro l hl hcolon
    obtain ⟨q, -, rfl⟩ := List.mem_map.mp hl
    exact (plain_of_mem_pieceChars hcolon).1 rfl

theorem splitAtGap?_of_plain {ds cs : List Char} (h : ∀ c ∈ ds, c ≠ ':') :
    splitAtGap? (ds ++ cs) = (splitAtGap? cs).map fun x => (ds ++ x.1, x.2) := by
  induction ds with
  | nil => simp
  | cons c ds ih =>
    obtain ⟨hc, hds⟩ := List.forall_mem_cons.mp h
    have hstep : splitAtGap? (c :: (ds ++ cs)) =
        (splitAtGap? (ds ++ cs)).map fun x => (c :: x.1, x.2) := by
      rw [splitAtGap?]
      exact fun _ hcolon _ => hc hcolon
    rw [List.cons_append, hstep, ih hds, Option.map_map]
    rfl

/-- Two colons in a row do not stand within what is joined or at its end. -/
theorem splitAtGap?_joined (ps : List UInt16) (cs : List Char) :
    splitAtGap? (joined ps ++ cs) = (splitAtGap? cs).map fun x => (joined ps ++ x.1, x.2) := by
  induction ps with
  | nil => simp [joined]
  | cons p ps ih =>
    have hplain : ∀ c ∈ pieceChars p, c ≠ ':' := fun c hc => (plain_of_mem_pieceChars hc).1
    cases ps with
    | nil =>
      rw [joined_singleton]
      exact splitAtGap?_of_plain hplain
    | cons q qs =>
      obtain ⟨c, ds, hds, hc⟩ := exists_joined_cons q qs
      have hstep : splitAtGap? (':' :: (joined (q :: qs) ++ cs)) =
          (splitAtGap? (joined (q :: qs) ++ cs)).map fun x => (':' :: x.1, x.2) := by
        rw [hds, List.cons_append, splitAtGap?]
        exact fun _ _ hcolons => hc (List.cons.inj hcolons).1
      rw [joined_cons_cons, List.append_assoc, splitAtGap?_of_plain hplain, List.cons_append,
        hstep, ih, Option.map_map, Option.map_map]
      simp [Function.comp_def]

theorem mem_joined {ps : List UInt16} {c : Char} (hc : c ∈ joined ps) :
    c = ':' ∨ ∃ d < 16, c = Nat.digitChar d := by
  rcases Text.mem_intercalate hc with rfl | ⟨l, hl, hmem⟩
  · exact Or.inl rfl
  · obtain ⟨p, -, rfl⟩ := List.mem_map.mp hl
    exact Or.inr (exists_digitChar_of_mem_pieceChars hmem)

/-- An address is written in colons and digits. -/
theorem mem_toChars {a : Ipv6} {c : Char} (hc : c ∈ a.toChars) :
    c = ':' ∨ ∃ d < 16, c = Nat.digitChar d := by
  unfold toChars at hc
  dsimp only at hc
  split at hc
  · exact mem_joined hc
  · rcases List.mem_append.mp hc with hc | hc
    · rcases List.mem_append.mp hc with hc | hc
      · exact mem_joined hc
      · exact Or.inl (by simpa using hc)
    · exact mem_joined hc

/-! ### The run that is left out -/

/-- The run that is found is the one to beat, or it is longer and stands in the list. -/
theorem longestRun_cases (i : Nat) (best : Nat × Nat) (ps : List UInt16) :
    longestRun i best ps = best ∨ best.2 < (longestRun i best ps).2 ∧
      i ≤ (longestRun i best ps).1 ∧
      (longestRun i best ps).2 = zeros (ps.drop ((longestRun i best ps).1 - i)) := by
  induction ps generalizing i best with
  | nil => exact Or.inl rfl
  | cons p ps ih =>
    unfold longestRun
    dsimp only
    by_cases hlonger : best.2 < zeros (p :: ps)
    · rw [if_pos hlonger]
      right
      rcases ih (i + 1) (i, zeros (p :: ps)) with hsame | ⟨hmore, hplace, hrun⟩
      · rw [hsame]
        exact ⟨hlonger, Nat.le_refl i, by simp⟩
      · generalize longestRun (i + 1) (i, zeros (p :: ps)) ps = r at *
        have hdrop : r.1 - i = (r.1 - (i + 1)) + 1 := by omega
        refine ⟨Nat.lt_trans hlonger hmore, by omega, ?_⟩
        rw [hdrop, List.drop_succ_cons]
        exact hrun
    · rw [if_neg hlonger]
      rcases ih (i + 1) best with hsame | ⟨hmore, hplace, hrun⟩
      · exact Or.inl hsame
      · right
        generalize longestRun (i + 1) best ps = r at *
        have hdrop : r.1 - i = (r.1 - (i + 1)) + 1 := by omega
        refine ⟨hmore, by omega, ?_⟩
        rw [hdrop, List.drop_succ_cons]
        exact hrun

/-- The zeros at the front of a list. -/
theorem replicate_zeros_append_drop (ps : List UInt16) :
    List.replicate (zeros ps) 0 ++ ps.drop (zeros ps) = ps := by
  have hzeros : ps.takeWhile (· == 0) = List.replicate (zeros ps) 0 := by
    refine List.eq_replicate_iff.mpr ⟨rfl, ?_⟩
    intro p hp
    simpa using List.all_eq_true.mp List.all_takeWhile p hp
  have hsplit : ps.takeWhile (· == 0) ++ ps.dropWhile (· == 0) = ps :=
    List.takeWhile_append_dropWhile
  have hdrop : ps.drop (zeros ps) = ps.dropWhile (· == 0) :=
    (congrArg (List.drop (zeros ps)) hsplit).symm.trans List.drop_left
  rw [hdrop, ← hzeros, hsplit]

theorem ofPieces?_pieces (a : Ipv6) : ofPieces? a.pieces = some a := dif_pos a.eight

/-- Pieces without a gap are read as an address. -/
theorem parse?_joined (ps : List UInt16) : parse? (joined ps) = ofPieces? ps := by
  have hnone := splitAtGap?_joined ps []
  rw [List.append_nil] at hnone
  unfold parse?
  rw [hnone]
  show ((pieces? (parts (joined ps))).bind ofPieces?) = _
  rw [parts_joined, pieces?_map_pieceChars]
  rfl

/-- A gap is filled with zeros. -/
theorem parse?_gap {front back : List UInt16} (room : front.length + back.length < 8) :
    parse? (joined front ++ ':' :: ':' :: joined back) =
      ofPieces? (front ++ List.replicate (8 - (front.length + back.length)) 0 ++ back) := by
  have hsplit : splitAtGap? (joined front ++ (':' :: ':' :: joined back)) =
      some (joined front, joined back) := by
    rw [splitAtGap?_joined, splitAtGap?, Option.map_some, List.append_nil]
  unfold parse?
  rw [hsplit]
  dsimp only
  rw [parts_joined, parts_joined, mapM_piece?_map_pieceChars, pieces?_map_pieceChars]
  exact if_pos room

/-- **An address is read back.** -/
theorem parse?_toChars (a : Ipv6) : parse? a.toChars = some a := by
  have hrun := longestRun_cases 0 (0, 1) a.pieces
  unfold toChars
  generalize longestRun 0 (0, 1) a.pieces = r at hrun
  obtain ⟨start, n⟩ := r
  dsimp only at hrun ⊢
  by_cases hone : n = 1
  · rw [if_pos hone, parse?_joined]
    exact ofPieces?_pieces a
  · obtain heq | ⟨hlong, -, hzeros⟩ := hrun
    · exact absurd (congrArg Prod.snd heq) hone
    rw [Nat.sub_zero] at hzeros
    have hfits : zeros (a.pieces.drop start) ≤ (a.pieces.drop start).length :=
      (List.takeWhile_sublist _).length_le
    rw [List.length_drop, a.eight, ← hzeros] at hfits
    have hwhole : a.pieces.take start ++ List.replicate n 0 ++ a.pieces.drop (start + n) =
        a.pieces := by
      have hback := replicate_zeros_append_drop (a.pieces.drop start)
      rw [← hzeros, List.drop_drop] at hback
      rw [List.append_assoc, hback, List.take_append_drop]
    have hmissing :
        8 - ((a.pieces.take start).length + (a.pieces.drop (start + n)).length) = n := by
      rw [List.length_take, List.length_drop, a.eight]
      omega
    have hroom : (a.pieces.take start).length + (a.pieces.drop (start + n)).length < 8 := by
      omega
    rw [if_neg hone, List.append_assoc, List.cons_append, List.singleton_append,
      parse?_gap hroom, hmissing, hwhole]
    exact ofPieces?_pieces a

end Ipv6

end ProposerBook
