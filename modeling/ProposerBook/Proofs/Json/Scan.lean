/-
Every JSON text is scanned as the tree that it spells.

The proof goes along the grammar, part by part, and every part is scanned with something behind
it.  White space is skipped before a sign, not after it, so what a scan leaves behind a value
may begin with the white space that the grammar counts to it.  Every step into a value takes a
sign, which is why twice as many steps as there are signs suffice for the value and for the
list that it stands in.
-/
import Mathlib.Tactic.IntervalCases
import ProposerBook.Json.Decode
import ProposerBook.Proofs.Json.Leaf

namespace ProposerBook

namespace Json

open Scan

/-! ### The first sign -/

theorem ends_space {w rest : Bytes} (h : Space w) (ends : Ends rest) : Ends (w ++ rest) := by
  cases w with
  | nil => exact ends
  | cons x w =>
    intro c bs heq
    cases heq
    exact Or.inl (h _ List.mem_cons_self)

theorem ends_sign {c : UInt8} {rest : Bytes} (h : c = 0x2c ∨ c = 0x5d ∨ c = 0x7d) :
    Ends (c :: rest) := by
  intro x bs heq
  cases heq
  exact Or.inr h

/-- Up to white space a text begins with a sign that closes nothing. -/
def Begins (b : Bytes) : Prop :=
  ∃ w c bs, b = w ++ c :: bs ∧ Space w ∧ isSpace c = false ∧ c ≠ 0x5d ∧ c ≠ 0x7d

theorem begins_cons {c : UInt8} {b : Bytes} (h : isSpace c = false ∧ c ≠ 0x5d ∧ c ≠ 0x7d) :
    Begins (c :: b) :=
  ⟨[], c, b, rfl, List.forall_mem_nil _, h⟩

theorem Begins.append {b rest : Bytes} (h : Begins b) : Begins (b ++ rest) := by
  obtain ⟨w, c, bs, rfl, hw, hc⟩ := h
  exact ⟨w, c, bs ++ rest, List.append_assoc _ _ _, hw, hc⟩

theorem begins_space {w b : Bytes} (h : Begins b) (space : Space w) : Begins (w ++ b) := by
  obtain ⟨v, c, bs, rfl, hv, hc⟩ := h
  refine ⟨w ++ v, c, bs, (List.append_assoc _ _ _).symm, ?_, hc⟩
  intro x hx
  rcases List.mem_append.mp hx with hx | hx
  · exact space x hx
  · exact hv x hx

theorem Begins.skipSpace {b : Bytes} (h : Begins b) :
    ∃ c bs, Scan.skipSpace b = c :: bs ∧ c ≠ 0x5d ∧ c ≠ 0x7d := by
  obtain ⟨w, c, bs, rfl, hw, hspace, hc⟩ := h
  exact ⟨c, bs, by rw [skipSpace_append hw, skipSpace_of_sign hspace], hc⟩

theorem begins_quotedText {s : StringLiteral} {b : Bytes} (h : QuotedText s b) : Begins b := by
  cases h with
  | said => exact begins_cons (by decide)
  | nothing => exact begins_cons (by decide)

theorem begins_digits {ds : List Nat} (h : Digits ds) : Begins (Value.writeDigits ds) := by
  have hdigit : ∀ d < 10, isSpace (UInt8.ofNat (0x30 + d)) = false ∧
      UInt8.ofNat (0x30 + d) ≠ 0x5d ∧ UInt8.ofNat (0x30 + d) ≠ 0x7d := by decide
  cases ds with
  | nil => exact absurd rfl h.nonempty
  | cons d ds => exact begins_cons (hdigit d (h.below d List.mem_cons_self))

theorem begins_numberText {l : Literal} {b : Bytes} (h : NumberText l b) : Begins b := by
  obtain ⟨digits, -, -, -⟩ := h
  rename_i negative _ _ _ _ _
  cases negative with
  | false => exact (begins_digits digits).append
  | true => exact begins_cons (by decide)

theorem begins_of_spells {p : Part} {b : Bytes} (h : Spells p b) : Begins b := by
  induction h with
  | null => exact begins_cons (by decide)
  | yes => exact begins_cons (by decide)
  | no => exact begins_cons (by decide)
  | number text => exact begins_numberText text
  | string text => exact begins_quotedText text
  | emptyArray => exact begins_cons (by decide)
  | array => exact begins_cons (by decide)
  | emptyObject => exact begins_cons (by decide)
  | object => exact begins_cons (by decide)
  | item front value back ih => exact begins_space ih.append front
  | entry front text middle item ih => exact begins_space (begins_quotedText text).append front
  | lastItem item ih => exact ih
  | moreItems item more ih => exact ih.append
  | lastEntry entry ih => exact ih
  | moreEntries entry more ih => exact ih.append

/-! ### One step into a value -/

theorem value_skipSpace (fuel : Nat) (b : Bytes) :
    Scan.value fuel (skipSpace b) = Scan.value fuel b := by
  cases fuel with
  | zero => rfl
  | succ fuel => rw [Scan.value.eq_2, Scan.value.eq_2, skipSpace_skipSpace]

theorem items_skipSpace (fuel : Nat) (b : Bytes) :
    Scan.items fuel (skipSpace b) = Scan.items fuel b := by
  cases fuel with
  | zero => rfl
  | succ fuel => rw [Scan.items.eq_2, Scan.items.eq_2, value_skipSpace]

theorem entries_skipSpace (fuel : Nat) (b : Bytes) :
    Scan.entries fuel (skipSpace b) = Scan.entries fuel b := by
  cases fuel with
  | zero => rfl
  | succ fuel => rw [Scan.entries.eq_2, Scan.entries.eq_2, skipSpace_skipSpace]

theorem word_append (w rest : Bytes) : word w (w ++ rest) = .ok rest := by
  induction w with
  | nil => rfl
  | cons c w ih =>
    show (if c = c then word w (w ++ rest) else _) = _
    rw [if_pos rfl, ih]

theorem value_null (fuel : Nat) (b : Bytes) : Scan.value (fuel + 1) (0x6e :: b) =
    leaf (fun _ => .null) ((word (Bytes.ofString "ull") b).map ((), ·)) := rfl

theorem value_true (fuel : Nat) (b : Bytes) : Scan.value (fuel + 1) (0x74 :: b) =
    leaf (fun _ => .bool true) ((word (Bytes.ofString "rue") b).map ((), ·)) := rfl

theorem value_false (fuel : Nat) (b : Bytes) : Scan.value (fuel + 1) (0x66 :: b) =
    leaf (fun _ => .bool false) ((word (Bytes.ofString "alse") b).map ((), ·)) := rfl

theorem value_string (fuel : Nat) (b : Bytes) :
    Scan.value (fuel + 1) (0x22 :: b) = leaf .string (Scan.string b) := rfl

theorem value_negative (fuel : Nat) (b : Bytes) :
    Scan.value (fuel + 1) (0x2d :: b) = leaf .number (number true b) := rfl

theorem value_digit (fuel : Nat) {d : Nat} (h : d < 10) (b : Bytes) :
    Scan.value (fuel + 1) (UInt8.ofNat (0x30 + d) :: b) =
      leaf .number (number false (UInt8.ofNat (0x30 + d) :: b)) := by
  interval_cases d <;> rfl

theorem value_openArray (fuel : Nat) (b : Bytes) : Scan.value (fuel + 1) (0x5b :: b) =
    match skipSpace b with
    | 0x5d :: b => (.array [] none, some b)
    | [] => (.array [] (some (.of .cutShort)), none)
    | b => (.array (Scan.items fuel b).1 (Scan.items fuel b).2.1, (Scan.items fuel b).2.2) := rfl

theorem value_openObject (fuel : Nat) (b : Bytes) : Scan.value (fuel + 1) (0x7b :: b) =
    match skipSpace b with
    | 0x7d :: b => (.object [] none, some b)
    | [] => (.object [] (some (.of .cutShort)), none)
    | b => (.object (Scan.entries fuel b).1 (Scan.entries fuel b).2.1,
        (Scan.entries fuel b).2.2) := rfl

theorem value_array (fuel : Nat) {b : Bytes} (h : Begins b) : Scan.value (fuel + 1) (0x5b :: b) =
    (.array (Scan.items fuel b).1 (Scan.items fuel b).2.1, (Scan.items fuel b).2.2) := by
  obtain ⟨c, bs, hskip, hclose, -⟩ := h.skipSpace
  rw [value_openArray, ← items_skipSpace, hskip]
  split
  · rename_i heq
    cases heq
    exact absurd rfl hclose
  · rename_i heq
    cases heq
  · rfl

theorem value_object (fuel : Nat) {b : Bytes} (h : Begins b) : Scan.value (fuel + 1) (0x7b :: b) =
    (.object (Scan.entries fuel b).1 (Scan.entries fuel b).2.1, (Scan.entries fuel b).2.2) := by
  obtain ⟨c, bs, hskip, -, hclose⟩ := h.skipSpace
  rw [value_openObject, ← entries_skipSpace, hskip]
  split
  · rename_i heq
    cases heq
    exact absurd rfl hclose
  · rename_i heq
    cases heq
  · rfl

section Steps

variable {fuel : Nat} {t : Tree} {b rest : Bytes}

/-- What follows a value decides how a list goes on. -/
theorem items_close (first : Scan.value fuel b = (t, some rest)) {after : Bytes}
    (next : skipSpace rest = 0x5d :: after) :
    Scan.items (fuel + 1) b = ([t], none, some after) := by
  simp only [Scan.items.eq_2, first, next]

theorem items_comma (first : Scan.value fuel b = (t, some rest)) {after : Bytes}
    (next : skipSpace rest = 0x2c :: after) {ts : List Tree} {final : Bytes}
    (more : Scan.items fuel after = (ts, none, some final)) :
    Scan.items (fuel + 1) b = (t :: ts, none, some final) := by
  simp only [Scan.items.eq_2, first, next, more]

/-- An entry is read: its key, the colon, and its value up to the next sign. -/
def EntryRead (fuel : Nat) (b : Bytes) (k : StringLiteral) (t : Tree) (next : Bytes) : Prop :=
  ∃ body afterKey value rest, skipSpace b = 0x22 :: body ∧ Scan.string body = .ok (k, afterKey) ∧
    skipSpace afterKey = 0x3a :: value ∧ Scan.value fuel value = (t, some rest) ∧
    skipSpace rest = next

variable {k : StringLiteral} {after : Bytes}

theorem entries_close (h : EntryRead fuel b k t (0x7d :: after)) :
    Scan.entries (fuel + 1) b = ([(k, t)], none, some after) := by
  obtain ⟨body, afterKey, value, rest, hquote, hkey, hcolon, hvalue, hnext⟩ := h
  simp only [Scan.entries.eq_2, hquote, hkey, hcolon, hvalue, hnext]

theorem entries_comma (h : EntryRead fuel b k t (0x2c :: after))
    {es : List (StringLiteral × Tree)} {final : Bytes}
    (more : Scan.entries fuel after = (es, none, some final)) :
    Scan.entries (fuel + 1) b = ((k, t) :: es, none, some final) := by
  obtain ⟨body, afterKey, value, rest, hquote, hkey, hcolon, hvalue, hnext⟩ := h
  simp only [Scan.entries.eq_2, hquote, hkey, hcolon, hvalue, hnext, more]

end Steps

/-! ### A whole value -/

/-- A part of a text is scanned as what it spells, whatever follows it. -/
def Scanned : Part → Bytes → Prop
  | .value t, b => ∀ fuel rest, 2 * b.length ≤ fuel → Ends rest →
    Scan.value fuel (b ++ rest) = (t, some rest)
  | .item t, b => ∀ fuel rest, 2 * b.length ≤ fuel → Ends rest →
    ∃ left, Scan.value fuel (b ++ rest) = (t, some left) ∧ skipSpace left = skipSpace rest
  | .entry k t, b => ∀ fuel rest, 2 * b.length ≤ fuel → Ends rest →
    EntryRead fuel (b ++ rest) k t (skipSpace rest)
  | .items ts, b => ∀ fuel rest, 2 * b.length < fuel →
    Scan.items fuel (b ++ 0x5d :: rest) = (ts, none, some rest)
  | .entries es, b => ∀ fuel rest, 2 * b.length < fuel →
    Scan.entries fuel (b ++ 0x7d :: rest) = (es, none, some rest)

/-- A value may be scanned with one step more than its signs leave. -/
theorem scanned_value {t : Tree} {c : UInt8} {b : Bytes}
    (h : ∀ fuel rest, 2 * b.length < fuel + 1 → Ends rest →
      Scan.value (fuel + 1) (c :: (b ++ rest)) = (t, some rest)) : Scanned (.value t) (c :: b) := by
  intro fuel rest enough ends
  rw [List.length_cons] at enough
  obtain ⟨fuel, rfl⟩ := Nat.exists_eq_add_one.mpr (show 0 < fuel by omega)
  exact h fuel rest (by omega) ends

theorem scanned_number {l : Literal} {b : Bytes} (h : NumberText l b) :
    Scanned (.value (.number l)) b := by
  obtain ⟨digits, alone, fractional, exponential⟩ := h
  rename_i negative whole fraction exponent? f e
  cases negative with
  | true =>
    refine scanned_value (b := Value.writeDigits whole ++ (f ++ e)) ?_
    intro fuel rest _ ends
    rw [value_negative, List.append_assoc, List.append_assoc,
      number_of_text digits alone fractional exponential ends]
    rfl
  | false =>
    cases whole with
    | nil => exact absurd rfl digits.nonempty
    | cons d ds =>
      refine scanned_value (b := Value.writeDigits ds ++ (f ++ e)) ?_
      intro fuel rest _ ends
      rw [value_digit fuel (digits.below d List.mem_cons_self), List.append_assoc,
        List.append_assoc]
      show leaf _ (number false (Value.writeDigits (d :: ds) ++ (f ++ (e ++ rest)))) = _
      rw [number_of_text digits alone fractional exponential ends]
      rfl

theorem scanned_word {t : Tree} {c : UInt8} {w : Bytes}
    (h : ∀ fuel b, Scan.value (fuel + 1) (c :: b) =
      leaf (fun _ => t) ((word w b).map ((), ·))) : Scanned (.value t) (c :: w) := by
  refine scanned_value ?_
  intro fuel rest _ _
  rw [h, word_append]
  rfl

theorem scanned_of_spells {p : Part} {b : Bytes} (h : Spells p b) : Scanned p b := by
  induction h with
  | null => exact scanned_word value_null
  | yes => exact scanned_word value_true
  | no => exact scanned_word value_false
  | number text => exact scanned_number text
  | string text =>
    obtain ⟨body, rfl, hstring⟩ := string_of_quotedText text
    refine scanned_value ?_
    intro fuel rest _ _
    rw [value_string, hstring]
    rfl
  | @emptyArray w space =>
    refine scanned_value ?_
    intro fuel rest _ _
    rw [value_openArray, List.append_assoc, skipSpace_append space]
    rfl
  | @array ts b items ih =>
    refine scanned_value ?_
    intro fuel rest enough _
    rw [List.length_append, List.length_singleton] at enough
    rw [List.append_assoc, value_array fuel (begins_of_spells items).append,
      List.singleton_append, ih fuel rest (by omega)]
  | @emptyObject w space =>
    refine scanned_value ?_
    intro fuel rest _ _
    rw [value_openObject, List.append_assoc, skipSpace_append space]
    rfl
  | @object es b entries ih =>
    refine scanned_value ?_
    intro fuel rest enough _
    rw [List.length_append, List.length_singleton] at enough
    rw [List.append_assoc, value_object fuel (begins_of_spells entries).append,
      List.singleton_append, ih fuel rest (by omega)]
  | @item t before b after front value back ih =>
    -- The space in front is skipped with the value; the space behind is left for the next sign.
    intro fuel rest enough ends
    rw [List.length_append, List.length_append] at enough
    refine ⟨after ++ rest, ?_, skipSpace_append back⟩
    rw [← value_skipSpace, List.append_assoc, skipSpace_append front, value_skipSpace,
      List.append_assoc]
    exact ih fuel (after ++ rest) (by omega) (ends_space back ends)
  | @entry k t before key between b front text middle item ih =>
    intro fuel rest enough ends
    simp only [List.length_append, List.length_cons] at enough
    obtain ⟨body, rfl, hstring⟩ := string_of_quotedText text
    obtain ⟨left, hvalue, hnext⟩ := ih fuel rest (by omega) ends
    refine ⟨body ++ (between ++ 0x3a :: (b ++ rest)), between ++ 0x3a :: (b ++ rest), b ++ rest,
      left, ?_, hstring _, ?_, hvalue, hnext⟩
    · simp only [List.append_assoc, List.cons_append]
      rw [skipSpace_append front, skipSpace_of_sign (by decide)]
    · rw [skipSpace_append middle, skipSpace_of_sign (by decide)]
  | @lastItem t b item ih =>
    intro fuel rest enough
    obtain ⟨fuel, rfl⟩ := Nat.exists_eq_add_one.mpr (Nat.zero_lt_of_lt enough)
    obtain ⟨left, hvalue, hnext⟩ := ih fuel (0x5d :: rest) (by omega) (ends_sign (by decide))
    exact items_close hvalue (hnext.trans (skipSpace_of_sign (by decide)))
  | @moreItems t ts b c item more ih ihmore =>
    intro fuel rest enough
    obtain ⟨fuel, rfl⟩ := Nat.exists_eq_add_one.mpr (Nat.zero_lt_of_lt enough)
    rw [List.length_append, List.length_cons] at enough
    obtain ⟨left, hvalue, hnext⟩ :=
      ih fuel (0x2c :: (c ++ 0x5d :: rest)) (by omega) (ends_sign (by decide))
    rw [List.append_assoc]
    exact items_comma hvalue (hnext.trans (skipSpace_of_sign (by decide)))
      (ihmore fuel rest (by omega))
  | @lastEntry k t b entry ih =>
    intro fuel rest enough
    obtain ⟨fuel, rfl⟩ := Nat.exists_eq_add_one.mpr (Nat.zero_lt_of_lt enough)
    have hentry := ih fuel (0x7d :: rest) (by omega) (ends_sign (by decide))
    rw [skipSpace_of_sign (by decide)] at hentry
    exact entries_close hentry
  | @moreEntries k t es b c entry more ih ihmore =>
    intro fuel rest enough
    obtain ⟨fuel, rfl⟩ := Nat.exists_eq_add_one.mpr (Nat.zero_lt_of_lt enough)
    rw [List.length_append, List.length_cons] at enough
    have hentry := ih fuel (0x2c :: (c ++ 0x7d :: rest)) (by omega) (ends_sign (by decide))
    rw [skipSpace_of_sign (by decide)] at hentry
    rw [List.append_assoc]
    exact entries_comma hentry (ihmore fuel rest (by omega))

/-- **Scanning is complete.**  A text that spells a value, with white space around it, is scanned
as that value, and nothing is left behind it. -/
theorem scan_of_spells {t : Tree} {b : Bytes} (h : Spells (.item t) b) :
    Json.scan b = ⟨t, false⟩ := by
  obtain ⟨left, hvalue, hnext⟩ :=
    scanned_of_spells h (2 * b.length + 2) [] (by omega) (fun c bs heq => by cases heq)
  rw [List.append_nil] at hvalue
  unfold Json.scan
  rw [hvalue]
  dsimp only
  rw [hnext]
  rfl

/-- A text spells one tree at most. -/
theorem tree_unique {t u : Tree} {b : Bytes} (ht : Spells (.item t) b) (hu : Spells (.item u) b) :
    t = u := by
  have hscan := scan_of_spells ht
  rw [scan_of_spells hu] at hscan
  exact (Document.mk.inj hscan).1.symm

/-- Of a text that spells a value, the reader gets the value. -/
theorem read_of_spells {ε α : Type} {d : Decoder ε α} {t : Tree} {b : Bytes}
    (h : Spells (.item t) b) : Json.read d b = d t := by
  unfold Json.read
  rw [scan_of_spells h]
  dsimp only
  cases d t with
  | error e => rfl
  | ok x => rfl

end Json

end ProposerBook
