/-
Only JSON is scanned without a fault.

This is the other half of the scan.  Whatever a step of it takes off the front of a text is the
part of the grammar that it yields, and where it stops before the end of a value it leaves a
fault in the tree.  So the induction on the steps says of each of them one of two things: there
is a fault, or the text begins with what has been read.  White space behind a value is counted
to it only when the next sign has been seen, which is why an item may be extended by it.

With completeness this makes scanning and spelling one: a text spells a tree just if it is
scanned as this tree, with nothing behind it and no fault in it.  A reader that accepts no tree
with a fault in it therefore accepts JSON texts and no others.
-/
import ProposerBook.Proofs.Json.Write
import ProposerBook.Proofs.Outcome

namespace ProposerBook

namespace Json

open Scan

/-! ### Texts between quotes -/

theorem exists_skipSpace (b : Bytes) : ∃ w, b = w ++ skipSpace b ∧ Space w := by
  refine ⟨b.takeWhile isSpace, List.takeWhile_append_dropWhile.symm, ?_⟩
  intro c hc
  exact List.all_eq_true.mp List.all_takeWhile c hc

theorem fourDigits_eq_ok {b rest : Bytes} {n : Nat} (h : fourDigits b = .ok (n, rest)) :
    ∃ d, b = d ++ rest ∧ FourDigits d n := by
  unfold fourDigits at h
  split at h
  · rename_i x y z w tail
    split at h
    · rename_i ds hds
      simp only [Except.ok.injEq, Prod.mk.injEq] at h
      obtain ⟨rfl, rfl⟩ := h
      exact ⟨[x, y, z, w], rfl, rfl, ds, hds, rfl⟩
    · simp at h
  · simp at h

/-- Whoever finds the end of a text has passed over what may stand between quotes. -/
theorem skipString_eq_ok {fuel : Nat} {b rest : Bytes} (h : skipString fuel b = .ok rest) :
    ∃ text, b = text ++ 0x22 :: rest ∧ Quotable text := by
  induction fuel generalizing b with
  | zero => simp [skipString] at h
  | succ fuel ih =>
    cases b with
    | nil => simp [skipString] at h
    | cons c b =>
      by_cases hquote : c = 0x22
      · subst hquote
        have hrest : skipString (fuel + 1) (0x22 :: b) = .ok b := rfl
        rw [hrest, Except.ok.injEq] at h
        exact ⟨[], by rw [h, List.nil_append], .nil⟩
      by_cases hbackslash : c = 0x5c
      · subst hbackslash
        cases b with
        | nil => simp [skipString] at h
        | cons l b =>
          by_cases hunit : l = 0x75
          · subst hunit
            rw [skipString, if_neg (by decide), if_pos rfl] at h
            cases hd : fourDigits b with
            | error e => simp [hd, bind, Except.bind] at h
            | ok y =>
              obtain ⟨n, left⟩ := y
              obtain ⟨d, rfl, digits⟩ := fourDigits_eq_ok hd
              rw [hd] at h
              obtain ⟨text, rfl, more⟩ := ih h
              exact ⟨0x5c :: 0x75 :: (d ++ text), by simp, .unit digits more⟩
          · rw [skipString.eq_5 _ _ _ _ hunit, if_neg (by decide), if_pos rfl] at h
            split at h
            · simp at h
            · rename_i x form
              obtain ⟨text, rfl, more⟩ := ih h
              exact ⟨0x5c :: l :: text, by simp, .letter form more⟩
      by_cases hcontrol : c < 0x20
      · conv at h => lhs; unfold skipString
        simp [hquote, hbackslash, hcontrol] at h
      · have form : IsPlain c := ⟨hquote, hbackslash, hcontrol⟩
        rw [skipString_plain form] at h
        obtain ⟨text, rfl, more⟩ := ih h
        exact ⟨c :: text, by simp, .plain form more⟩

/-- What a text is read as is what it says.  A text that is read as nothing says nothing, because
what it said would have been read. -/
theorem quotedText_of_string {b rest : Bytes} {s : StringLiteral}
    (h : Scan.string b = .ok (s, rest)) :
    ∃ text, b = text ++ 0x22 :: rest ∧ QuotedText s (0x22 :: (text ++ [0x22])) := by
  have hskip : skipString (b.length + 1) b = .ok rest := by
    unfold Scan.string at h
    dsimp only at h
    split at h
    · rename_i hskip
      simp only [Except.ok.injEq, Prod.mk.injEq] at h
      rw [hskip, h.2]
    · split at h <;> simp at h
  obtain ⟨text, rfl, form⟩ := skipString_eq_ok hskip
  refine ⟨text, rfl, ?_⟩
  have enough : text.length < (text ++ 0x22 :: rest).length + 1 := by
    rw [List.length_append]
    omega
  have hsaid := fun s' (said : Says text (Bytes.ofString s')) => readString_of_said said enough rest
  rcases readString_of_quotable form enough rest with ⟨content, said, hread⟩ | hread
  · rw [string_of_read hread hskip, Except.ok.injEq, Prod.mk.injEq] at h
    rw [← h.1]
    unfold literal
    cases hs : content.toString? with
    | some s' =>
      rw [Bytes.eq_ofString_of_toString? hs] at said
      exact .said said
    | none =>
      refine .nothing form fun s' said' => ?_
      have hsame := hsaid s' said'
      rw [hread, Except.ok.injEq, Prod.mk.injEq] at hsame
      rw [hsame.1, Bytes.toString?_ofString] at hs
      cases hs
  · rw [string_of_fault hread hskip, Except.ok.injEq, Prod.mk.injEq] at h
    rw [← h.1]
    refine .nothing form fun s' said' => ?_
    rw [hsaid s' said'] at hread
    cases hread

/-! ### Numbers -/

theorem digit?_eq_some {c : UInt8} {d : Nat} (h : digit? c = some d) :
    c = UInt8.ofNat (0x30 + d) ∧ d < 10 := by
  unfold digit? at h
  split at h
  · rename_i hc
    have hlow : (0x30 : UInt8).toNat ≤ c.toNat := UInt8.le_iff_toNat_le.mp hc.1
    have hhigh : c.toNat ≤ (0x39 : UInt8).toNat := UInt8.le_iff_toNat_le.mp hc.2
    have h30 : (0x30 : UInt8).toNat = 0x30 := rfl
    have h39 : (0x39 : UInt8).toNat = 0x39 := rfl
    have hd : c.toNat - 0x30 = d := Option.some.inj h
    refine ⟨?_, by omega⟩
    rw [show 0x30 + d = c.toNat by omega, UInt8.ofNat_toNat]
  · cases h

theorem digits_eq {b rest : Bytes} {ds : List Nat} (h : digits b = (ds, rest)) :
    b = Value.writeDigits ds ++ rest ∧ ∀ d ∈ ds, d < 10 := by
  induction b generalizing ds with
  | nil =>
    simp only [digits, Prod.mk.injEq] at h
    obtain ⟨rfl, rfl⟩ := h
    simp [Value.writeDigits]
  | cons c b ih =>
    rw [digits] at h
    cases hc : digit? c with
    | none =>
      simp only [hc, Prod.mk.injEq] at h
      obtain ⟨rfl, rfl⟩ := h
      simp [Value.writeDigits]
    | some d =>
      obtain ⟨rfl, hd⟩ := digit?_eq_some hc
      cases hmore : digits b with
      | mk es left =>
        simp only [hc, hmore, Prod.mk.injEq] at h
        obtain ⟨rfl, rfl⟩ := h
        obtain ⟨rfl, hes⟩ := ih hmore
        refine ⟨rfl, ?_⟩
        intro e he
        rcases List.mem_cons.mp he with rfl | he
        · exact hd
        · exact hes e he

theorem someDigits_eq_ok {b rest : Bytes} {ds : List Nat} (h : someDigits b = .ok (ds, rest)) :
    b = Value.writeDigits ds ++ rest ∧ Digits ds := by
  unfold someDigits at h
  split at h
  · simp at h
  · rename_i hne
    rw [Except.ok.injEq] at h
    obtain ⟨hb, below⟩ := digits_eq h
    refine ⟨hb, ?_, below⟩
    rintro rfl
    exact hne rest h

theorem wholeDigits_eq_ok {b rest : Bytes} {ds : List Nat} (h : wholeDigits b = .ok (ds, rest)) :
    b = Value.writeDigits ds ++ rest ∧ Digits ds ∧ ∀ es, ds = 0 :: es → es = [] := by
  unfold wholeDigits at h
  split at h
  · simp at h
  · simp at h
  · rename_i hne hzero
    rw [Except.ok.injEq] at h
    obtain ⟨hb, below⟩ := digits_eq h
    refine ⟨hb, ⟨?_, below⟩, ?_⟩
    · rintro rfl
      exact hne rest h
    · rintro (_ | ⟨e, es⟩) rfl
      · rfl
      · exact absurd h (hzero e es rest)

theorem exponent_eq_ok {b rest : Bytes} {x : Option (Bool × List Nat)}
    (h : exponent b = .ok (x, rest)) : ∃ e, b = e ++ rest ∧ ExponentText x e := by
  cases b with
  | nil =>
    simp only [exponent, Except.ok.injEq, Prod.mk.injEq] at h
    obtain ⟨rfl, rfl⟩ := h
    exact ⟨[], rfl, .none⟩
  | cons c b =>
    unfold exponent at h
    dsimp only at h
    split at h
    · rename_i letter
      obtain ⟨⟨ds, left⟩, hds, hend⟩ := bind_eq_ok_iff.mp h
      simp only [pure, Except.pure, Except.ok.injEq, Prod.mk.injEq] at hend
      obtain ⟨rfl, rfl⟩ := hend
      obtain ⟨hb, digits⟩ := someDigits_eq_ok hds
      have htext := fun negative sign signed =>
        @ExponentText.some _ negative sign ds letter signed digits
      -- A sign in front of the digits is one of two, or none.
      split at hb
      · subst hb
        exact ⟨_, by simp, htext false [0x2b] (by simp)⟩
      · subst hb
        exact ⟨_, by simp, htext true [0x2d] (by simp)⟩
      · dsimp only at hb
        subst hb
        exact ⟨_, by simp, htext false [] (by simp)⟩
    · simp only [Except.ok.injEq, Prod.mk.injEq] at h
      obtain ⟨rfl, rfl⟩ := h
      exact ⟨[], rfl, .none⟩

theorem numberText_of_number {negative : Bool} {b rest : Bytes} {l : Literal}
    (h : number negative b = .ok (l, rest)) :
    ∃ w, b = w ++ rest ∧ NumberText l ((if negative then [0x2d] else []) ++ w) := by
  unfold number at h
  obtain ⟨⟨whole, b₁⟩, hwhole, hbehind⟩ := bind_eq_ok_iff.mp h
  obtain ⟨hb, digits, alone⟩ := wholeDigits_eq_ok hwhole
  obtain ⟨fraction, f, b₂, rfl, fractional, hlast⟩ : ∃ fraction f b₂, b₁ = f ++ b₂ ∧
      FractionText fraction f ∧ (exponent b₂ >>= fun x =>
        .ok ((⟨negative, whole, fraction, x.1⟩ : Literal), x.2)) = .ok (l, rest) := by
    dsimp only at hbehind
    split at hbehind
    · obtain ⟨⟨fraction, b₂⟩, hfraction, hlast⟩ := bind_eq_ok_iff.mp hbehind
      obtain ⟨rfl, digits'⟩ := someDigits_eq_ok hfraction
      exact ⟨fraction, _, b₂, by simp, .some digits', hlast⟩
    · exact ⟨[], [], _, rfl, .none, hbehind⟩
  obtain ⟨⟨x, b₃⟩, hexponent, hend⟩ := bind_eq_ok_iff.mp hlast
  simp only [Except.ok.injEq, Prod.mk.injEq] at hend
  obtain ⟨rfl, rfl⟩ := hend
  obtain ⟨e, rfl, exponential⟩ := exponent_eq_ok hexponent
  refine ⟨Value.writeDigits whole ++ (f ++ e), by simp [hb], ?_⟩
  exact .intro digits alone fractional exponential

theorem word_eq_ok {w b rest : Bytes} (h : word w b = .ok rest) : b = w ++ rest := by
  induction w generalizing b with
  | nil =>
    rw [word, Except.ok.injEq] at h
    rw [h, List.nil_append]
  | cons c w ih =>
    cases b with
    | nil => simp [word] at h
    | cons d b =>
      rw [word] at h
      split at h
      · rename_i hcd
        rw [hcd, ih h, List.cons_append]
      · simp at h

/-! ### Values -/

/-- White space behind a value belongs to it. -/
theorem Spells.append_space {t : Tree} {b w : Bytes} (h : Spells (.item t) b) (space : Space w) :
    Spells (.item t) (b ++ w) := by
  cases h with
  | @item t before b after front value back =>
    have hback : Space (after ++ w) := by
      intro c hc
      rcases List.mem_append.mp hc with hc | hc
      · exact back c hc
      · exact space c hc
    have hitem := Spells.item front value hback
    simpa using hitem

/-- What a scan yields that begins with a value. -/
def ValueScanned (b : Bytes) : Tree × Option Bytes → Prop
  | (t, none) => t.skip ≠ none
  | (t, some rest) => ∃ w, b = w ++ rest ∧ Spells (.item t) w

/-- What a scan yields that begins with the values of an array. -/
def ItemsScanned (b : Bytes) : List Tree × Option Break × Option Bytes → Prop
  | (ts, stop, none) => (skipItems ts).or (stop.map Break.skip) ≠ none
  | (ts, stop, some rest) => stop = none ∧ ∃ w, b = w ++ 0x5d :: rest ∧ Spells (.items ts) w

/-- What a scan yields that begins with the entries of an object. -/
def EntriesScanned (b : Bytes) : List (StringLiteral × Tree) × Option Break × Option Bytes → Prop
  | (es, stop, none) => (skipEntries es).or (stop.map Break.skip) ≠ none
  | (es, stop, some rest) => stop = none ∧ ∃ w, b = w ++ 0x7d :: rest ∧ Spells (.entries es) w

theorem valueScanned_leaf {α : Type} {f : α → Tree} {x : Except Break (α × Bytes)} {b : Bytes}
    (h : ∀ y rest, x = .ok (y, rest) → ∃ w, b = w ++ rest ∧ Spells (.item (f y)) w) :
    ValueScanned b (leaf f x) := by
  cases x with
  | error e =>
    show (Tree.broken e).skip ≠ none
    simp [Tree.skip]
  | ok y => exact h y.1 y.2 rfl

theorem eq_of_ofUInt8 {c : UInt8} {d : Char} (h : Char.ofUInt8 c = d) : c = d.toUInt8 := by
  subst h
  show c = UInt8.ofNat c.toNat
  rw [UInt8.ofNat_toNat]

section Steps

variable {fuel : Nat} {b s : Bytes} {c : UInt8}

/-- White space in front is passed over. -/
theorem ValueScanned.space {w : Bytes} {y : Tree × Option Bytes} (h : ValueScanned b y)
    (space : Space w) : ValueScanned (w ++ b) y := by
  obtain ⟨t, rest?⟩ := y
  cases rest? with
  | none => exact h
  | some rest =>
    obtain ⟨v, rfl, hspells⟩ := h
    cases hspells with
    | @item t before b after front value back =>
      have hfront : Space (w ++ before) := by
        intro d hd
        rcases List.mem_append.mp hd with hd | hd
        · exact space d hd
        · exact front d hd
      exact ⟨_, by simp, .item hfront value back⟩

theorem valueScanned_word {t : Tree} {w : Bytes} (spelled : Spells (.value t) (c :: w)) :
    ValueScanned (c :: s) (leaf (fun _ => t) ((word w s).map ((), ·))) := by
  refine valueScanned_leaf fun y rest hword => ?_
  obtain ⟨left, hleft, heq⟩ := map_eq_ok_iff.mp hword
  simp only [Prod.mk.injEq, true_and] at heq
  rw [← heq, word_eq_ok hleft]
  exact ⟨c :: w, rfl, spelled.compact⟩

theorem valueScanned_string : ValueScanned (0x22 :: s) (leaf .string (Scan.string s)) := by
  refine valueScanned_leaf fun y rest hstring => ?_
  obtain ⟨text, rfl, htext⟩ := quotedText_of_string hstring
  exact ⟨0x22 :: (text ++ [0x22]), by simp, Spells.compact (.string htext)⟩

theorem valueScanned_number (negative : Bool) {sign : Bytes}
    (signed : (if negative then [0x2d] else []) = sign) :
    ValueScanned (sign ++ s) (leaf .number (number negative s)) := by
  refine valueScanned_leaf fun l rest hnumber => ?_
  obtain ⟨w, rfl, htext⟩ := numberText_of_number hnumber
  rw [signed] at htext
  exact ⟨sign ++ w, by simp, Spells.compact (.number htext)⟩

theorem valueScanned_array (items : ItemsScanned s (Scan.items fuel s)) :
    ValueScanned (0x5b :: s) (Scan.value (fuel + 1) (0x5b :: s)) := by
  obtain ⟨w, hs, space⟩ := exists_skipSpace s
  rw [← items_skipSpace] at items
  rw [value_openArray]
  split
  · rename_i rest hclose
    rw [hclose] at hs
    exact ⟨0x5b :: (w ++ [0x5d]), by simp [hs], Spells.compact (.emptyArray space)⟩
  · show (Tree.array [] (some (.of .cutShort))).skip ≠ none
    simp [Tree.skip, skipItems]
  · cases hscan : Scan.items fuel (skipSpace s) with
    | mk ts end? =>
      obtain ⟨stop, rest?⟩ := end?
      rw [hscan] at items
      cases rest? with
      | none => exact items
      | some rest =>
        obtain ⟨rfl, v, rfl, hspells⟩ := items
        exact ⟨0x5b :: (v ++ [0x5d]), by simp, Spells.compact (.array hspells)⟩

theorem valueScanned_object (entries : EntriesScanned s (Scan.entries fuel s)) :
    ValueScanned (0x7b :: s) (Scan.value (fuel + 1) (0x7b :: s)) := by
  obtain ⟨w, hs, space⟩ := exists_skipSpace s
  rw [← entries_skipSpace] at entries
  rw [value_openObject]
  split
  · rename_i rest hclose
    rw [hclose] at hs
    exact ⟨0x7b :: (w ++ [0x7d]), by simp [hs], Spells.compact (.emptyObject space)⟩
  · show (Tree.object [] (some (.of .cutShort))).skip ≠ none
    simp [Tree.skip, skipEntries]
  · cases hscan : Scan.entries fuel (skipSpace s) with
    | mk es end? =>
      obtain ⟨stop, rest?⟩ := end?
      rw [hscan] at entries
      cases rest? with
      | none => exact entries
      | some rest =>
        obtain ⟨rfl, v, rfl, hspells⟩ := entries
        exact ⟨0x7b :: (v ++ [0x7d]), by simp, Spells.compact (.object hspells)⟩

/-- The first sign of a value decides what is read. -/
theorem valueScanned_succ (items : ∀ b, ItemsScanned b (Scan.items fuel b))
    (entries : ∀ b, EntriesScanned b (Scan.entries fuel b)) (b : Bytes) :
    ValueScanned b (Scan.value (fuel + 1) b) := by
  obtain ⟨w, hb, space⟩ := exists_skipSpace b
  rw [hb, ← value_skipSpace, skipSpace_append space, skipSpace_skipSpace]
  refine ValueScanned.space ?_ space
  cases hs : skipSpace b with
  | nil =>
    show (Tree.broken (.of .cutShort)).skip ≠ none
    simp [Tree.skip]
  | cons c s =>
    have hskip : skipSpace (c :: s) = c :: s := by
      rw [← hs, skipSpace_skipSpace]
    rw [Scan.value.eq_2, hskip]
    dsimp only
    split
    · rename_i hc
      rw [eq_of_ofUInt8 hc]
      exact valueScanned_word .null
    · rename_i hc
      rw [eq_of_ofUInt8 hc]
      exact valueScanned_word .yes
    · rename_i hc
      rw [eq_of_ofUInt8 hc]
      exact valueScanned_word .no
    · rename_i hc
      rw [eq_of_ofUInt8 hc]
      exact valueScanned_string
    · rename_i hc
      rw [eq_of_ofUInt8 hc]
      exact valueScanned_number true rfl
    · rename_i hc
      rw [eq_of_ofUInt8 hc]
      exact valueScanned_array (items s)
    · rename_i hc
      rw [eq_of_ofUInt8 hc]
      exact valueScanned_object (entries s)
    · split
      · exact valueScanned_number false rfl
      · show (Tree.broken (.of .malformed)).skip ≠ none
        simp [Tree.skip]

/-- An array goes on behind a comma, and ends with the bracket. -/
theorem itemsScanned_succ (values : ∀ b, ValueScanned b (Scan.value fuel b))
    (items : ∀ b, ItemsScanned b (Scan.items fuel b)) (b : Bytes) :
    ItemsScanned b (Scan.items (fuel + 1) b) := by
  have first := values b
  rw [Scan.items.eq_2]
  cases hscan : Scan.value fuel b with
  | mk t rest? =>
    rw [hscan] at first
    cases rest? with
    | none =>
      have hfault : t.skip ≠ none := first
      show (skipItems [t]).or none ≠ none
      simpa [skipItems] using hfault
    | some rest =>
      obtain ⟨v, rfl, hspells⟩ := first
      obtain ⟨w, hrest, space⟩ := exists_skipSpace rest
      have hitem := hspells.append_space space
      dsimp only
      split
      · rename_i after hclose
        rw [hclose] at hrest
        exact ⟨rfl, v ++ w, by simp [hrest], .lastItem hitem⟩
      · rename_i after hcomma
        rw [hcomma] at hrest
        have more := items after
        cases hmore : Scan.items fuel after with
        | mk ts end? =>
          obtain ⟨stop, final?⟩ := end?
          rw [hmore] at more
          cases final? with
          | none =>
            show (t.skip.or (skipItems ts)).or (stop.map Break.skip) ≠ none
            rw [show t.skip = none from skip_of_spells hspells, Option.none_or]
            exact more
          | some final =>
            obtain ⟨rfl, u, rfl, hitems⟩ := more
            exact ⟨rfl, (v ++ w) ++ 0x2c :: u, by simp [hrest], .moreItems hitem hitems⟩
      · show (skipItems [t]).or (some _) ≠ none
        simp

/-- An object goes on behind a comma, and ends with the brace. -/
theorem entriesScanned_succ (values : ∀ b, ValueScanned b (Scan.value fuel b))
    (entries : ∀ b, EntriesScanned b (Scan.entries fuel b)) (b : Bytes) :
    EntriesScanned b (Scan.entries (fuel + 1) b) := by
  obtain ⟨before, hb, front⟩ := exists_skipSpace b
  rw [Scan.entries.eq_2]
  split
  · rename_i body hquote
    rw [hquote] at hb
    cases hkey : Scan.string body with
    | error stop =>
      show (skipEntries []).or (some _) ≠ none
      simp [skipEntries]
    | ok key =>
      obtain ⟨k, afterKey⟩ := key
      obtain ⟨text, rfl, htext⟩ := quotedText_of_string hkey
      obtain ⟨between, hafter, middle⟩ := exists_skipSpace afterKey
      dsimp only
      split
      · rename_i left hcolon
        rw [hcolon] at hafter
        have first := values left
        cases hscan : Scan.value fuel left with
        | mk t rest? =>
          rw [hscan] at first
          cases rest? with
          | none =>
            have hfault : t.skip ≠ none := first
            show (skipEntries [(k, t)]).or none ≠ none
            simpa [skipEntries] using hfault
          | some rest =>
            obtain ⟨v, rfl, hspells⟩ := first
            obtain ⟨w, hrest, space⟩ := exists_skipSpace rest
            have hentry := Spells.entry front htext middle (hspells.append_space space)
            dsimp only
            split
            · rename_i after hclose
              rw [hclose] at hrest
              exact ⟨rfl, _, by simp [hb, hafter, hrest], .lastEntry hentry⟩
            · rename_i after hcomma
              rw [hcomma] at hrest
              have more := entries after
              cases hmore : Scan.entries fuel after with
              | mk es end? =>
                obtain ⟨stop, final?⟩ := end?
                rw [hmore] at more
                cases final? with
                | none =>
                  show (t.skip.or (skipEntries es)).or (stop.map Break.skip) ≠ none
                  rw [show t.skip = none from skip_of_spells hspells, Option.none_or]
                  exact more
                | some final =>
                  obtain ⟨rfl, u, rfl, hentries⟩ := more
                  exact ⟨rfl, _, by simp [hb, hafter, hrest], .moreEntries hentry hentries⟩
            · show (skipEntries [(k, t)]).or (some _) ≠ none
              simp
      · show (skipEntries [(k, Tree.broken _)]).or none ≠ none
        simp [skipEntries, Tree.skip]
  · show (skipEntries []).or (some _) ≠ none
    simp [skipEntries]

end Steps

/-- What the steps scan, however many there are. -/
theorem scanned (fuel : Nat) :
    (∀ b, ValueScanned b (Scan.value fuel b)) ∧ (∀ b, ItemsScanned b (Scan.items fuel b)) ∧
      ∀ b, EntriesScanned b (Scan.entries fuel b) := by
  induction fuel with
  | zero =>
    refine ⟨?_, ?_, ?_⟩
    · intro b
      show (Tree.broken (.of .cutShort)).skip ≠ none
      simp [Tree.skip]
    · intro b
      show (skipItems []).or (some _) ≠ none
      simp [skipItems]
    · intro b
      show (skipEntries []).or (some _) ≠ none
      simp [skipEntries]
  | succ fuel ih =>
    obtain ⟨values, items, entries⟩ := ih
    exact ⟨valueScanned_succ items entries, itemsScanned_succ values items,
      entriesScanned_succ values entries⟩

/-! ### A whole text -/

/-- **Scanning is sound.**  A text that is scanned to its end without a fault spells the tree that
it is scanned as. -/
theorem spells_of_scan {t : Tree} {b : Bytes} (h : Json.scan b = ⟨t, false⟩)
    (sound : t.skip = none) : Spells (.item t) b := by
  have hvalue := (scanned (2 * b.length + 2)).1 b
  unfold Json.scan at h
  cases hscan : Scan.value (2 * b.length + 2) b with
  | mk root rest? =>
    rw [hscan] at h hvalue
    cases rest? with
    | none =>
      simp only [Document.mk.injEq, and_true] at h
      rw [h] at hvalue
      exact absurd sound hvalue
    | some rest =>
      simp only [Document.mk.injEq, Bool.not_eq_eq_eq_not, Bool.not_false, List.isEmpty_iff] at h
      obtain ⟨rfl, hempty⟩ := h
      obtain ⟨v, rfl, hspells⟩ := hvalue
      -- Nothing but white space is left, and it belongs to the value.
      obtain ⟨w, hrest, space⟩ := exists_skipSpace rest
      rw [hempty, List.append_nil] at hrest
      rw [hrest]
      exact hspells.append_space space

/-- A text spells at most one tree. -/
theorem Spells.unique {t u : Tree} {b : Bytes} (ht : Spells (.item t) b)
    (hu : Spells (.item u) b) : t = u := by
  have hsame := (scan_of_spells ht).symm.trans (scan_of_spells hu)
  simpa using hsame

/-- **A reader that accepts no tree with a fault in it accepts JSON texts only**, and what it gets
of a text is what it makes of the tree that the text spells. -/
theorem read_eq_ok_iff {ε α : Type} {d : Decoder ε α} (sound : ∀ {t x}, d t = .ok x → t.skip = none)
    {b : Bytes} {x : α} :
    Json.read d b = .ok x ↔ ∃ t, Spells (.item t) b ∧ d t = .ok x := by
  constructor
  · intro h
    unfold Json.read at h
    dsimp only at h
    cases hd : d (Json.scan b).root with
    | error e => simp [hd] at h
    | ok y =>
      have hdone : (Json.scan b).trailing = false := by
        by_contra htrailing
        rw [Bool.not_eq_false] at htrailing
        simp [hd, htrailing] at h
      simp only [hd, hdone, Bool.false_eq_true, if_false, Except.ok.injEq] at h
      subst h
      refine ⟨(Json.scan b).root, spells_of_scan ?_ (sound hd), hd⟩
      rw [← hdone]
  · rintro ⟨t, spelled, hd⟩
    rw [read_of_spells spelled, hd]

end Json

end ProposerBook
