/-
Punycode is read back.

A distance is read back digit by digit: what the digits behind the first one say, weighted, and
what the first one says make up the distance again.  As every number is read to its end and no
further, a list of them is read back one by one, and behind the last hyphen there is nothing but
numbers.

The insertions are read back along the order in which they are made.  At any time those characters
are in their places that come before some character and place in this order, and `placed` is the
text that they make up.  The next insertion puts the next character into this text, and when none
is left the text is whole.
-/
import Mathlib.Data.List.TakeWhile
import Mathlib.Tactic.Ring
import ProposerBook.Url.Punycode

namespace ProposerBook

namespace Punycode

/-! ### Numbers -/

theorem digitValue?_digit {n : Nat} (h : n < 36) : digitValue? (digit n) = some n := by
  have hall : ∀ n < 36, digitValue? (digit n) = some n := by decide
  exact hall n h

/-- **A number is read back**, and nothing behind it is touched. -/
theorem readNumber_writeNumber (bias place weight sum q : Nat) (rest : List Char) :
    readNumber bias place weight sum (writeNumber bias place q ++ rest) =
      some (sum + q * weight, rest) := by
  induction q using Nat.strongRecOn generalizing place weight sum with
  | ind q ih =>
    obtain ⟨hpositive, hsmall⟩ := threshold_bounds bias place
    unfold writeNumber
    by_cases hlast : q < threshold bias place
    · dsimp only
      rw [if_pos hlast, List.singleton_append, readNumber, digitValue?_digit (by omega)]
      simp only [if_pos hlast]
    · dsimp only
      rw [if_neg hlast, List.cons_append, readNumber]
      generalize threshold bias place = t at *
      have hdigit : t + (q - t) % (36 - t) < 36 := by
        have hmod := Nat.mod_lt (q - t) (show 0 < 36 - t by omega)
        omega
      have hfewer : (q - t) / (36 - t) < q := by
        have hdiv := Nat.div_le_self (q - t) (36 - t)
        omega
      have hsum : q = t + (q - t) % (36 - t) + (q - t) / (36 - t) * (36 - t) := by
        have hparts := Nat.mod_add_div (q - t) (36 - t)
        rw [Nat.mul_comm] at hparts
        omega
      rw [digitValue?_digit hdigit]
      simp only
      rw [if_neg (by omega), ih _ hfewer]
      generalize hd : t + (q - t) % (36 - t) = d at *
      generalize (q - t) / (36 - t) = k at *
      rw [hsum]
      congr 2
      ring

theorem writeNumber_ne_nil (bias place q : Nat) : writeNumber bias place q ≠ [] := by
  unfold writeNumber
  dsimp only
  split
  · exact List.cons_ne_nil _ _
  · exact List.cons_ne_nil _ _

/-- **Numbers are read back.** -/
theorem readNumbers_writeNumbers (bias size : Nat) (isFirst : Bool) (ds : List Nat) (fuel : Nat)
    (enough : (writeNumbers bias size isFirst ds).length ≤ fuel) :
    readNumbers fuel bias size isFirst (writeNumbers bias size isFirst ds) = some ds := by
  induction ds generalizing bias size isFirst fuel with
  | nil =>
    cases fuel with
    | zero => rfl
    | succ fuel => rfl
  | cons d ds ih =>
    have hsome := List.length_pos_iff.mpr (writeNumber_ne_nil bias 36 d)
    have htext : writeNumbers bias size isFirst (d :: ds) = writeNumber bias 36 d ++
        writeNumbers (adapt d (size + 1) isFirst) (size + 1) false ds := rfl
    rw [htext, List.length_append] at enough
    obtain ⟨fuel, rfl⟩ : ∃ n, fuel = n + 1 := ⟨fuel - 1, by omega⟩
    have hread := readNumber_writeNumber bias 36 1 0 d
      (writeNumbers (adapt d (size + 1) isFirst) (size + 1) false ds)
    rw [Nat.zero_add, Nat.mul_one] at hread
    have hmore := ih (adapt d (size + 1) isFirst) (size + 1) false fuel (by omega)
    obtain ⟨c, cs, hcs⟩ := List.exists_cons_of_ne_nil
      (List.append_ne_nil_of_left_ne_nil (writeNumber_ne_nil bias 36 d)
        (writeNumbers (adapt d (size + 1) isFirst) (size + 1) false ds))
    rw [hcs] at hread
    rw [htext, hcs]
    show (readNumber bias 36 1 0 (c :: cs)).bind (fun x =>
      (readNumbers fuel (adapt x.1 (size + 1) isFirst) (size + 1) false x.2).bind
        fun ds => some (x.1 :: ds)) = _
    rw [hread]
    dsimp only [Option.bind_some]
    rw [hmore]
    rfl

/-! ### The order of insertions -/

/-- An insertion of `x` at its place comes before one of `y`. -/
def Before (x y : Nat × Nat) : Prop := x.1 < y.1 ∨ x.1 = y.1 ∧ x.2 < y.2

section Order

variable {α : Type} {x y : α} {l : List α}

/-- Of two members one stands first. -/
theorem pair_sublist_or (hx : x ∈ l) (hy : y ∈ l) (other : x ≠ y) :
    [x, y].Sublist l ∨ [y, x].Sublist l := by
  induction l with
  | nil => cases hx
  | cons z l ih =>
    rcases List.mem_cons.mp hx with hxz | hx
    · rcases List.mem_cons.mp hy with hyz | hy
      · exact absurd (hxz.trans hyz.symm) other
      · rw [hxz]
        exact Or.inl ((List.singleton_sublist.mpr hy).cons_cons z)
    · rcases List.mem_cons.mp hy with hyz | hy
      · rw [hyz]
        exact Or.inr ((List.singleton_sublist.mpr hx).cons_cons z)
      · exact (ih hx hy).imp (·.cons z) (·.cons z)

/-- Where each stands once, only one of two stands first. -/
theorem not_pair_sublist (once : l.Nodup) (h : [x, y].Sublist l) : ¬[y, x].Sublist l := by
  induction l with
  | nil => cases h
  | cons z l ih =>
    obtain ⟨hz, once⟩ := List.nodup_cons.mp once
    intro hback
    cases h with
    | cons _ h =>
      cases hback with
      | cons _ hback => exact ih once h hback
      | cons_cons _ _ => exact hz (h.subset (by simp))
    | cons_cons _ h =>
      cases hback with
      | cons _ hback => exact hz (hback.subset (by simp))
      | cons_cons _ _ => exact hz (h.subset (by simp))

end Order

/-- Sorted by the characters, insertions at ascending places are in order. -/
theorem ordered_mergeSort {l : List (Nat × Nat)} (h : l.Pairwise fun x y => x.2 < y.2) :
    (l.mergeSort fun x y => x.1 ≤ y.1).Pairwise Before := by
  have htrans : ∀ x y z : Nat × Nat, decide (x.1 ≤ y.1) = true → decide (y.1 ≤ z.1) = true →
      decide (x.1 ≤ z.1) = true := by
    intro x y z hxy hyz
    simp only [decide_eq_true_eq] at *
    omega
  have htotal : ∀ x y : Nat × Nat, (decide (x.1 ≤ y.1) || decide (y.1 ≤ x.1)) = true := by
    intro x y
    simp only [Bool.or_eq_true, decide_eq_true_eq]
    omega
  have hperm := List.mergeSort_perm l fun x y => decide (x.1 ≤ y.1)
  have honce : l.Nodup := h.imp fun hxy heq => by
    rw [heq] at hxy
    omega
  have hsorted := List.pairwise_mergeSort htrans htotal l
  refine List.pairwise_iff_forall_sublist.mpr ?_
  intro x y hxy
  have hle : x.1 ≤ y.1 := of_decide_eq_true (List.pairwise_iff_forall_sublist.mp hsorted hxy)
  by_contra hnot
  have hne : x ≠ y := by
    have hpair := (hperm.nodup_iff.mpr honce).sublist hxy
    simpa using hpair
  have hmem : ∀ z ∈ [x, y], z ∈ l := fun z hz => hperm.mem_iff.mp (hxy.subset hz)
  rcases pair_sublist_or (hmem x (by simp)) (hmem y (by simp)) hne with hfirst | hback
  · have hplaces := List.pairwise_iff_forall_sublist.mp h hfirst
    unfold Before at hnot
    omega
  · -- Equal characters keep their order, so the two would stand in both orders.
    have hsame : decide (y.1 ≤ x.1) = true := by
      unfold Before at hnot
      exact decide_eq_true (by omega)
    exact not_pair_sublist (hperm.nodup_iff.mpr honce) hxy
      (List.pair_sublist_mergeSort htrans htotal hsame hback)

/-- The characters beyond ASCII with their places, in the order in which they are inserted. -/
def order (cs : List Char) : List (Nat × Nat) :=
  ((cs.map Char.toNat).zipIdx.filter fun (n, _) => firstInserted ≤ n).mergeSort
    fun x y => x.1 ≤ y.1

theorem ordered_order (cs : List Char) : (order cs).Pairwise Before := by
  refine ordered_mergeSort (List.Pairwise.filter _ ?_)
  rw [List.pairwise_iff_getElem]
  intro i j hi hj hij
  simpa using hij

theorem mem_order {cs : List Char} {x : Nat × Nat} :
    x ∈ order cs ↔ (∃ c, cs[x.2]? = some c ∧ c.toNat = x.1) ∧ firstInserted ≤ x.1 := by
  unfold order
  rw [List.mem_mergeSort, List.mem_filter, List.mem_zipIdx_iff_getElem?, List.getElem?_map,
    Option.map_eq_some_iff, decide_eq_true_eq]

/-! ### The text as it grows -/

/-- Where an insertion goes: behind the characters before its own that are not greater. -/
def place (cs : List Char) (x : Nat × Nat) : Nat :=
  (cs.take x.2).countP fun c => c.toNat ≤ x.1

theorem insertions_eq (cs : List Char) :
    insertions cs = (order cs).map fun x => (x.1, place cs x) := rfl

instance (x y : Nat × Nat) : Decidable (Before x y) :=
  inferInstanceAs (Decidable (_ ∨ _))

/-- The text that the characters make up whose insertion comes before `x`. -/
def placed (cs : List Char) (x : Nat × Nat) : List Char :=
  (cs.zipIdx.filter fun e => Before (e.1.toNat, e.2) x).map Prod.fst

theorem map_fst_filter_zipIdx (p : Char → Bool) (cs : List Char) (k : Nat) :
    ((cs.zipIdx k).filter fun e => p e.1).map Prod.fst = cs.filter p := by
  have hmap := List.filter_map (f := Prod.fst) (l := cs.zipIdx k) (p := p)
  rw [List.zipIdx_map_fst] at hmap
  exact hmap.symm

/-- Up to the place these are the characters that are not greater, and behind it the smaller
ones. -/
theorem placed_eq (cs : List Char) (x : Nat × Nat) :
    placed cs x = ((cs.take x.2).filter fun c => c.toNat ≤ x.1) ++
      (cs.drop x.2).filter fun c => c.toNat < x.1 := by
  have hsplit : cs.zipIdx = (cs.take x.2).zipIdx ++ (cs.drop x.2).zipIdx (cs.take x.2).length := by
    rw [← Nat.zero_add (cs.take x.2).length, ← List.zipIdx_append, List.take_append_drop]
  have hfront : ∀ e ∈ (cs.take x.2).zipIdx,
      decide (Before (e.1.toNat, e.2) x) = decide (e.1.toNat ≤ x.1) := by
    intro e he
    obtain ⟨-, hlt, -⟩ := List.mem_zipIdx he
    rw [List.length_take] at hlt
    refine decide_eq_decide.mpr ?_
    unfold Before
    omega
  have hback : ∀ e ∈ (cs.drop x.2).zipIdx (cs.take x.2).length,
      decide (Before (e.1.toNat, e.2) x) = decide (e.1.toNat < x.1) := by
    intro e he
    obtain ⟨hle, hlt, -⟩ := List.mem_zipIdx he
    rw [List.length_take] at hle hlt
    rw [List.length_drop] at hlt
    refine decide_eq_decide.mpr ?_
    unfold Before
    omega
  unfold placed
  rw [hsplit, List.filter_append, List.map_append, List.filter_congr hfront,
    List.filter_congr hback]
  exact congrArg₂ (· ++ ·) (map_fst_filter_zipIdx (fun c => c.toNat ≤ x.1) _ _)
    (map_fst_filter_zipIdx (fun c => c.toNat < x.1) _ _)

theorem place_le (cs : List Char) (x : Nat × Nat) : place cs x ≤ (placed cs x).length := by
  rw [placed_eq, List.length_append, place, List.countP_eq_length_filter]
  exact Nat.le_add_right _ _

/-- An insertion puts its character at its place. -/
theorem placed_next {cs : List Char} {x : Nat × Nat} {c : Char} (h : cs[x.2]? = some c)
    (value : c.toNat = x.1) :
    placed cs (x.1, x.2 + 1) =
        (placed cs x).take (place cs x) ++ c :: (placed cs x).drop (place cs x) ∧
      place cs (x.1, x.2 + 1) = place cs x + 1 := by
  obtain ⟨hlt, hc⟩ := List.getElem?_eq_some_iff.mp h
  have htake : cs.take (x.2 + 1) = cs.take x.2 ++ [c] := by
    rw [← hc, List.take_append_getElem]
  have hdrop : cs.drop x.2 = c :: cs.drop (x.2 + 1) := by
    rw [← hc, List.getElem_cons_drop]
  have hplace : place cs x = ((cs.take x.2).filter fun c => c.toNat ≤ x.1).length :=
    List.countP_eq_length_filter
  refine ⟨?_, ?_⟩
  · have hlater : ¬c.toNat < x.1 := by omega
    have hhere : c.toNat ≤ x.1 := by omega
    rw [placed_eq, placed_eq, hplace, List.take_left, List.drop_left, htake, hdrop]
    simp [hlater, hhere]
  · unfold place
    rw [htake, List.countP_append]
    simp [value]

/-- What comes next in the order is put into the text as it is. -/
theorem placed_congr {cs : List Char} {x y : Nat × Nat}
    (h : ∀ k c, cs[k]? = some c → (Before (c.toNat, k) x ↔ Before (c.toNat, k) y)) :
    placed cs x = placed cs y := by
  unfold placed
  refine congrArg (List.map Prod.fst) (List.filter_congr ?_)
  intro e he
  exact decide_eq_decide.mpr (h e.2 e.1 (List.mem_zipIdx_iff_getElem?.mp he))

/-- A distance leads to its character and its place. -/
theorem insertAt_cons {n m i p : Nat} {text : List Char} {c : Char} (inside : p ≤ text.length)
    (reach : i ≤ (m - n) * (text.length + 1) + p) (upward : n ≤ m) (value : c.toNat = m)
    (ds : List Nat) :
    insertAt n i text (((m - n) * (text.length + 1) + p - i) :: ds) =
      insertAt m (p + 1) (text.take p ++ c :: text.drop p) ds := by
  have hdistance : i + ((m - n) * (text.length + 1) + p - i) =
      p + (text.length + 1) * (m - n) := by
    rw [Nat.add_sub_cancel' reach, Nat.mul_comm, Nat.add_comm]
  have hchar : n + (p + (text.length + 1) * (m - n)) / (text.length + 1) = m := by
    rw [Nat.add_mul_div_left _ _ (Nat.succ_pos _), Nat.div_eq_of_lt (by omega)]
    omega
  have hplace : (p + (text.length + 1) * (m - n)) % (text.length + 1) = p := by
    rw [Nat.add_mul_mod_self_left, Nat.mod_eq_of_lt (by omega)]
  have hvalid : m.isValidChar := value ▸ c.valid
  have hback : Char.ofNat m = c := by
    rw [← value, Char.ofNat_toNat]
  rw [insertAt, hdistance, hchar, hplace, if_pos hvalid, hback]

/-! ### The insertions that are left -/

/-- These are the insertions that are left from `x` on: in their order, and all of them. -/
structure Left (cs : List Char) (x : Nat × Nat) (es : List (Nat × Nat)) : Prop where
  ordered : es.Pairwise Before
  ahead : ∀ e ∈ es, ¬Before e x
  chars : ∀ e ∈ es, ∃ c, cs[e.2]? = some c ∧ c.toNat = e.1
  covers : ∀ k c, cs[k]? = some c → ¬Before (c.toNat, k) x → (c.toNat, k) ∈ es

theorem left_order (cs : List Char) : Left cs (firstInserted, 0) (order cs) where
  ordered := ordered_order cs
  ahead e he := by
    have hbeyond := (mem_order.mp he).2
    unfold Before
    omega
  chars e he := (mem_order.mp he).1
  covers k c hc hnot := by
    refine mem_order.mpr ⟨⟨c, hc, rfl⟩, ?_⟩
    unfold Before at hnot
    omega

namespace Left

variable {cs : List Char} {x e : Nat × Nat} {es : List (Nat × Nat)}

/-- Where nothing is left, the text is whole. -/
theorem placed_of_nil (h : Left cs x []) : placed cs x = cs := by
  have hall : ∀ e ∈ cs.zipIdx, decide (Before (e.1.toNat, e.2) x) = true := by
    intro e he
    refine decide_eq_true (Classical.byContradiction fun hnot => ?_)
    exact List.not_mem_nil (h.covers e.2 e.1 (List.mem_zipIdx_iff_getElem?.mp he) hnot)
  unfold placed
  rw [List.filter_eq_self.mpr hall, List.zipIdx_map_fst]

/-- Nothing is put into the text between `x` and the insertion that comes next. -/
theorem placed_eq (h : Left cs x (e :: es)) : placed cs x = placed cs e := by
  obtain ⟨hbehind, -⟩ := List.pairwise_cons.mp h.ordered
  have hahead := h.ahead e List.mem_cons_self
  refine placed_congr ?_
  intro k d hd
  constructor
  · intro hx
    unfold Before at *
    omega
  · intro he
    by_contra hx
    rcases List.mem_cons.mp (h.covers k d hd hx) with heq | hmem
    · rw [heq] at he
      unfold Before at he
      omega
    · have hlater := hbehind _ hmem
      unfold Before at he hlater
      omega

theorem upward (h : Left cs x (e :: es)) : x.1 ≤ e.1 := by
  have hahead := h.ahead e List.mem_cons_self
  unfold Before at hahead
  omega

/-- The insertion that comes next is not passed over. -/
theorem reach (h : Left cs x (e :: es)) :
    place cs x ≤ (e.1 - x.1) * ((placed cs x).length + 1) + place cs e := by
  have hahead := h.ahead e List.mem_cons_self
  by_cases hchar : x.1 < e.1
  · have hsize := place_le cs x
    have hsteps := Nat.le_mul_of_pos_left ((placed cs x).length + 1)
      (show 0 < e.1 - x.1 by omega)
    omega
  · have hequal : e.1 = x.1 := by
      unfold Before at hahead
      omega
    have hfurther : x.2 ≤ e.2 := by
      unfold Before at hahead
      omega
    have hmore : place cs x ≤ place cs e := by
      unfold place
      rw [hequal]
      exact (List.take_sublist_take_left hfurther).countP_le
    omega

/-- Once it is made, the others are left. -/
theorem next (h : Left cs x (e :: es)) : Left cs (e.1, e.2 + 1) es := by
  obtain ⟨hbehind, hordered⟩ := List.pairwise_cons.mp h.ordered
  have hahead := h.ahead e List.mem_cons_self
  refine ⟨hordered, ?_, fun f hf => h.chars f (List.mem_cons_of_mem _ hf), ?_⟩
  · intro f hf
    have hlater := hbehind f hf
    unfold Before at hlater ⊢
    omega
  · intro k d hd hnot
    have hx : ¬Before (d.toNat, k) x := by
      unfold Before at hnot hahead ⊢
      omega
    rcases List.mem_cons.mp (h.covers k d hd hx) with heq | hmem
    · rw [← heq] at hnot
      exact absurd (Or.inr ⟨rfl, Nat.lt_succ_self k⟩) hnot
    · exact hmem

/-- **The insertions that are left make the text whole.** -/
theorem insertAt_distances (h : Left cs x es) :
    insertAt x.1 (place cs x) (placed cs x) (distances x.1 (place cs x) (placed cs x).length
      (es.map fun e => (e.1, place cs e))) = some cs := by
  induction es generalizing x with
  | nil => exact congrArg some h.placed_of_nil
  | cons e es ih =>
    obtain ⟨c, hc, hvalue⟩ := h.chars e List.mem_cons_self
    have hplace : place cs e ≤ (placed cs x).length := by
      rw [h.placed_eq]
      exact place_le cs e
    obtain ⟨htext, hnext⟩ := placed_next hc hvalue
    have hlength : (placed cs (e.1, e.2 + 1)).length = (placed cs x).length + 1 := by
      rw [htext, ← h.placed_eq]
      simp
      omega
    have hmore := ih h.next
    rw [hnext, hlength, htext, ← h.placed_eq] at hmore
    exact (insertAt_cons hplace h.reach h.upward hvalue _).trans hmore

end Left

/-! ### Texts -/

theorem exists_digit_of_mem_writeNumber {bias place q : Nat} {c : Char}
    (h : c ∈ writeNumber bias place q) : ∃ n < 36, c = digit n := by
  induction q using Nat.strongRecOn generalizing place with
  | ind q ih =>
    obtain ⟨hpositive, hsmall⟩ := threshold_bounds bias place
    unfold writeNumber at h
    dsimp only at h
    by_cases hlast : q < threshold bias place
    · rw [if_pos hlast, List.mem_singleton] at h
      exact ⟨q, by omega, h⟩
    · rw [if_neg hlast] at h
      rcases List.mem_cons.mp h with hdigit | hmore
      · have hmod := Nat.mod_lt (q - threshold bias place)
          (show 0 < 36 - threshold bias place by omega)
        exact ⟨_, by omega, hdigit⟩
      · have hdiv := Nat.div_le_self (q - threshold bias place) (36 - threshold bias place)
        exact ih _ (by omega) hmore

/-- Numbers are written in digits. -/
theorem exists_digit_of_mem_writeNumbers {bias size : Nat} {isFirst : Bool} {ds : List Nat}
    {c : Char} (h : c ∈ writeNumbers bias size isFirst ds) : ∃ n < 36, c = digit n := by
  induction ds generalizing bias size isFirst with
  | nil => cases h
  | cons d ds ih =>
    rcases List.mem_append.mp h with hfirst | hmore
    · exact exists_digit_of_mem_writeNumber hfirst
    · exact ih hmore

theorem dash_not_mem_writeNumbers (bias size : Nat) (isFirst : Bool) (ds : List Nat) :
    '-' ∉ writeNumbers bias size isFirst ds := by
  have hall : ∀ n < 36, digit n ≠ '-' := by decide
  intro h
  obtain ⟨n, hn, hdash⟩ := exists_digit_of_mem_writeNumbers h
  exact hall n hn hdash.symm

/-- The last hyphen parts the ASCII characters from the numbers. -/
theorem split_of_no_dash {basic numbers cs : List Char} (h : '-' ∉ numbers)
    (text : cs = basic ++ (if basic.isEmpty then [] else ['-']) ++ numbers) :
    (cs.reverse.takeWhile (· != '-')).reverse = numbers ∧
      (cs.take (cs.length - numbers.length)).dropLast = basic ∧
      ¬(cs.head? = some '-' ∧ basic.isEmpty = true) := by
  have hplain : ∀ c ∈ numbers.reverse, (c != '-') = true := by
    intro c hc
    rw [bne_iff_ne]
    rintro rfl
    exact h (List.mem_reverse.mp hc)
  by_cases hbasic : basic = []
  · subst hbasic
    have hcs : cs = numbers := text
    subst hcs
    refine ⟨?_, ?_, ?_⟩
    · rw [List.takeWhile_eq_self_iff.mpr hplain, List.reverse_reverse]
    · simp
    · rintro ⟨hhead, -⟩
      exact h (List.mem_of_head? hhead)
  · have hsome : basic.isEmpty = false := by
      rw [List.isEmpty_eq_false_iff]
      exact hbasic
    rw [hsome] at text ⊢
    have hcs : cs = (basic ++ ['-']) ++ numbers := text
    subst hcs
    refine ⟨?_, ?_, by simp⟩
    · rw [List.reverse_append, List.reverse_append, List.takeWhile_append_of_pos hplain]
      simp
    · rw [List.length_append, Nat.add_sub_cancel, List.take_left, List.dropLast_concat]

/-- **A text is read back.** -/
theorem decode?_encode (cs : List Char) : decode? (encode cs) = some cs := by
  have hbasic : placed cs (firstInserted, 0) = cs.filter fun c => c.toNat < firstInserted := by
    rw [placed_eq]
    rfl
  have hstart : place cs (firstInserted, 0) = 0 := rfl
  have hinserted := (left_order cs).insertAt_distances
  obtain ⟨htail, hfront, hhead⟩ := split_of_no_dash
    (dash_not_mem_writeNumbers firstBias _ true _) (show encode cs = _ from rfl)
  rw [hbasic, hstart, ← insertions_eq] at hinserted
  unfold decode?
  dsimp only
  rw [htail, hfront, if_neg hhead, readNumbers_writeNumbers _ _ _ _ _ (Nat.le_refl _)]
  exact hinserted

/-- A text is written in its own ASCII characters, the hyphen and digits. -/
theorem mem_encode {cs : List Char} {c : Char} (h : c ∈ encode cs) :
    c ∈ cs ∧ c.toNat < firstInserted ∨ c = '-' ∨ ∃ n < 36, c = digit n := by
  unfold encode at h
  dsimp only at h
  rcases List.mem_append.mp h with hfront | hnumbers
  · rcases List.mem_append.mp hfront with hbasic | hdash
    · obtain ⟨hmem, hascii⟩ := List.mem_filter.mp hbasic
      exact Or.inl ⟨hmem, of_decide_eq_true hascii⟩
    · split at hdash
      · cases hdash
      · exact Or.inr (Or.inl (List.mem_singleton.mp hdash))
  · exact Or.inr (Or.inr (exists_digit_of_mem_writeNumbers hnumbers))

end Punycode

end ProposerBook
