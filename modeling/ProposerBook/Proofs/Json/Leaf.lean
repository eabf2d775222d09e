/-
Texts between quotes and numbers are scanned as what they spell.

A text is scanned with something behind it, and the scan takes the text and leaves the rest.
Between quotes the scan goes twice, once for what the text says and once for its end; a text
that says nothing is told from one that says something by the first pass alone.  A number has
no sign at its end, so what follows must not look like more of it; inside a text it is white
space, a comma or a bracket.
-/
import ProposerBook.Proofs.Json.Grammar

namespace ProposerBook

namespace Json

open Scan

/-! ### White space -/

theorem skipSpace_append {w b : Bytes} (h : Space w) : skipSpace (w ++ b) = skipSpace b :=
  List.dropWhile_append_of_pos h

theorem skipSpace_of_sign {c : UInt8} {b : Bytes} (h : isSpace c = false) :
    skipSpace (c :: b) = c :: b :=
  List.dropWhile_cons_of_neg (Bool.eq_false_iff.mp h)

theorem skipSpace_skipSpace (b : Bytes) : skipSpace (skipSpace b) = skipSpace b := by
  cases h : skipSpace b with
  | nil => rfl
  | cons c bs =>
    refine skipSpace_of_sign ?_
    have hhead := List.head?_dropWhile_not isSpace b
    unfold skipSpace at h
    rw [h] at hhead
    simpa using hhead

/-! ### Texts between quotes -/

theorem fourDigits_append {d rest : Bytes} {n : Nat} (h : FourDigits d n) :
    fourDigits (d ++ rest) = .ok (n, rest) := by
  obtain ⟨hlen, ds, hds, rfl⟩ := h
  match d, hlen with
  | [x, y, z, w], _ =>
    show fourDigits (x :: y :: z :: w :: rest) = _
    unfold fourDigits
    dsimp only
    rw [hds]

section Unicode

variable {d e rest : Bytes} {n m : Nat}

theorem unicodeEscape_point (digits : FourDigits d n) (alone : ¬(0xd800 ≤ n ∧ n ≤ 0xdfff)) :
    unicodeEscape (d ++ rest) = .ok (utf8 n, rest) := by
  unfold unicodeEscape
  rw [fourDigits_append digits]
  show (if 0xdc00 ≤ n ∧ n ≤ 0xdfff then _ else if 0xd800 ≤ n ∧ n ≤ 0xdbff then _ else _) = _
  rw [if_neg (by omega), if_neg (by omega)]

theorem unicodeEscape_low (digits : FourDigits d n) (low : 0xdc00 ≤ n ∧ n ≤ 0xdfff) :
    unicodeEscape (d ++ rest) = .error .malformed := by
  unfold unicodeEscape
  rw [fourDigits_append digits]
  exact if_pos low

/-- The first half of a pair is followed by the second. -/
theorem unicodeEscape_high (first : FourDigits d n) (second : FourDigits e m)
    (high : 0xd800 ≤ n ∧ n ≤ 0xdbff) : unicodeEscape (d ++ 0x5c :: 0x75 :: (e ++ rest)) =
      if 0xdc00 ≤ m ∧ m ≤ 0xdfff then
        .ok (utf8 (0x10000 + (n - 0xd800) * 0x400 + (m - 0xdc00)), rest)
      else .error .malformed := by
  unfold unicodeEscape
  rw [fourDigits_append first]
  show (if 0xdc00 ≤ n ∧ n ≤ 0xdfff then _ else if 0xd800 ≤ n ∧ n ≤ 0xdbff then _ else _) = _
  rw [if_neg (by omega), if_pos high]
  show (fourDigits (e ++ rest)).bind _ = _
  rw [fourDigits_append second]
  rfl

/-- What follows the first half of a pair and is no escape by number. -/
def Breaks (b : Bytes) : Prop :=
  (∃ c bs, b = c :: bs ∧ c ≠ 0x5c) ∨ ∃ l bs, b = 0x5c :: l :: bs ∧ l ≠ 0x75

theorem unicodeEscape_lone (first : FourDigits d n) (high : 0xd800 ≤ n ∧ n ≤ 0xdbff)
    (breaks : Breaks rest) : unicodeEscape (d ++ rest) = .error .malformed := by
  unfold unicodeEscape
  rw [fourDigits_append first]
  show (if 0xdc00 ≤ n ∧ n ≤ 0xdfff then _ else if 0xd800 ≤ n ∧ n ≤ 0xdbff then _ else _) = _
  rw [if_neg (by omega), if_pos high]
  rcases breaks with ⟨c, bs, rfl, hc⟩ | ⟨l, bs, rfl, hl⟩
  · split
    · rename_i heq; cases heq
    · rename_i heq; cases heq; exact absurd rfl hc
    · rename_i heq; cases heq; exact absurd rfl hc
    · rfl
  · split
    · rename_i heq; cases heq
    · rename_i heq; cases heq
    · rename_i heq; cases heq; exact absurd rfl hl
    · rfl

end Unicode

section Strings

variable {c l x : UInt8} {fuel n : Nat} {d b : Bytes}

theorem readString_plain (form : IsPlain c) :
    readString (fuel + 1) (c :: b) = (readString fuel b).map fun y => (c :: y.1, y.2) := by
  obtain ⟨hquote, hbackslash, hcontrol⟩ := form
  conv => lhs; unfold readString
  rw [if_neg hquote, if_neg hbackslash, if_neg hcontrol]
  rfl

theorem skipString_plain (form : IsPlain c) :
    skipString (fuel + 1) (c :: b) = skipString fuel b := by
  obtain ⟨hquote, hbackslash, hcontrol⟩ := form
  conv => lhs; unfold skipString
  rw [if_neg hquote, if_neg hbackslash, if_neg hcontrol]

theorem letter_ne (form : escaped? l = some x) : l ≠ 0x75 := by
  rintro rfl
  cases form

theorem readString_letter (form : escaped? l = some x) :
    readString (fuel + 1) (0x5c :: l :: b) = (readString fuel b).map fun y => (x :: y.1, y.2) := by
  rw [readString.eq_5 _ _ _ _ (letter_ne form), if_neg (by decide), if_pos rfl, form]
  rfl

theorem skipString_letter (form : escaped? l = some x) :
    skipString (fuel + 1) (0x5c :: l :: b) = skipString fuel b := by
  rw [skipString.eq_5 _ _ _ _ (letter_ne form), if_neg (by decide), if_pos rfl, form]

theorem readString_unit : readString (fuel + 1) (0x5c :: 0x75 :: b) =
    unicodeEscape b >>= fun y => (readString fuel y.2).map fun z => (y.1 ++ z.1, z.2) := by
  rw [readString, if_neg (by decide), if_pos rfl]
  rfl

theorem skipString_unit (digits : FourDigits d n) :
    skipString (fuel + 1) (0x5c :: 0x75 :: (d ++ b)) = skipString fuel b := by
  rw [skipString, if_neg (by decide), if_pos rfl, fourDigits_append digits]
  rfl

end Strings

/-- What a text says is read. -/
theorem readString_of_said {text content : Bytes} (h : Says text content) {fuel : Nat}
    (enough : text.length < fuel) (rest : Bytes) :
    readString fuel (text ++ 0x22 :: rest) = .ok (content, rest) := by
  induction h generalizing fuel with
  | nil =>
    obtain ⟨fuel, rfl⟩ := Nat.exists_eq_add_one.mpr (Nat.zero_lt_of_lt enough)
    rfl
  | plain form more ih =>
    obtain ⟨fuel, rfl⟩ := Nat.exists_eq_add_one.mpr (Nat.zero_lt_of_lt enough)
    rw [List.length_cons] at enough
    rw [List.cons_append, readString_plain form, ih (by omega)]
    rfl
  | letter form more ih =>
    obtain ⟨fuel, rfl⟩ := Nat.exists_eq_add_one.mpr (Nat.zero_lt_of_lt enough)
    rw [List.length_cons, List.length_cons] at enough
    rw [List.cons_append, List.cons_append, readString_letter form, ih (by omega)]
    rfl
  | point digits alone more ih =>
    obtain ⟨fuel, rfl⟩ := Nat.exists_eq_add_one.mpr (Nat.zero_lt_of_lt enough)
    rw [List.length_cons, List.length_cons, List.length_append] at enough
    rw [List.cons_append, List.cons_append, List.append_assoc, readString_unit,
      unicodeEscape_point digits alone]
    show (readString fuel _).map _ = _
    rw [ih (by omega)]
    rfl
  | pair first second high low more ih =>
    obtain ⟨fuel, rfl⟩ := Nat.exists_eq_add_one.mpr (Nat.zero_lt_of_lt enough)
    simp only [List.length_cons, List.length_append] at enough
    rw [List.cons_append, List.cons_append, List.append_assoc, List.cons_append, List.cons_append,
      List.append_assoc, readString_unit, unicodeEscape_high first second high, if_pos low]
    show (readString fuel _).map _ = _
    rw [ih (by omega)]
    rfl

/-- The end of a text is found, whether it says something or not. -/
theorem skipString_of_quotable {text : Bytes} (h : Quotable text) {fuel : Nat}
    (enough : text.length < fuel) (rest : Bytes) :
    skipString fuel (text ++ 0x22 :: rest) = .ok rest := by
  induction h generalizing fuel with
  | nil =>
    obtain ⟨fuel, rfl⟩ := Nat.exists_eq_add_one.mpr (Nat.zero_lt_of_lt enough)
    rfl
  | plain form more ih =>
    obtain ⟨fuel, rfl⟩ := Nat.exists_eq_add_one.mpr (Nat.zero_lt_of_lt enough)
    rw [List.length_cons] at enough
    rw [List.cons_append, skipString_plain form, ih (by omega)]
  | letter form more ih =>
    obtain ⟨fuel, rfl⟩ := Nat.exists_eq_add_one.mpr (Nat.zero_lt_of_lt enough)
    rw [List.length_cons, List.length_cons] at enough
    rw [List.cons_append, List.cons_append, skipString_letter form, ih (by omega)]
  | unit digits more ih =>
    obtain ⟨fuel, rfl⟩ := Nat.exists_eq_add_one.mpr (Nat.zero_lt_of_lt enough)
    rw [List.length_cons, List.length_cons, List.length_append] at enough
    rw [List.cons_append, List.cons_append, List.append_assoc, skipString_unit digits,
      ih (by omega)]

theorem quotable_of_said {text content : Bytes} (h : Says text content) : Quotable text := by
  induction h with
  | nil => exact .nil
  | plain form more ih => exact .plain form ih
  | letter form more ih => exact .letter form ih
  | point digits alone more ih => exact .unit digits ih
  | pair first second high low more ih => exact .unit first (.unit second ih)

/-- What a text says has been read, or else it says nothing and its reading has failed. -/
def SaidOrRefused (text rest : Bytes) (read : Except Fault (Bytes × Bytes)) : Prop :=
  (∃ content, Says text content ∧ read = .ok (content, rest)) ∨ read = .error .malformed

theorem SaidOrRefused.map {text whole rest : Bytes} {read : Except Fault (Bytes × Bytes)}
    {f : Bytes → Bytes} (h : SaidOrRefused text rest read)
    (extend : ∀ {content}, Says text content → Says whole (f content)) :
    SaidOrRefused whole rest (read.map fun y => (f y.1, y.2)) := by
  rcases h with ⟨content, hsaid, rfl⟩ | rfl
  · exact Or.inl ⟨f content, extend hsaid, rfl⟩
  · exact Or.inr rfl

/-- Of a text that may stand between quotes, what it says is read, or else it says nothing and the
reading fails.  A step of the reading may take two units at once, so the induction is on the steps
that the reading has left. -/
theorem readString_of_quotable {text : Bytes} (h : Quotable text) {fuel : Nat}
    (enough : text.length < fuel) (rest : Bytes) :
    SaidOrRefused text rest (readString fuel (text ++ 0x22 :: rest)) := by
  induction fuel generalizing text with
  | zero => omega
  | succ fuel ih =>
    cases h with
    | nil => exact Or.inl ⟨[], .nil, rfl⟩
    | plain form more =>
      rw [List.length_cons] at enough
      rw [List.cons_append, readString_plain form]
      exact (ih more (by omega)).map (.plain form)
    | letter form more =>
      rw [List.length_cons, List.length_cons] at enough
      rw [List.cons_append, List.cons_append, readString_letter form]
      exact (ih more (by omega)).map (.letter form)
    | @unit d text n digits more =>
      rw [List.length_cons, List.length_cons, List.length_append] at enough
      rw [List.cons_append, List.cons_append, List.append_assoc, readString_unit]
      -- A unit stands alone, or is the second half of a pair, or the first half of one.
      by_cases halone : 0xd800 ≤ n ∧ n ≤ 0xdfff
      · by_cases hlow : 0xdc00 ≤ n
        · rw [unicodeEscape_low digits ⟨hlow, halone.2⟩]
          exact Or.inr rfl
        · have hhigh : 0xd800 ≤ n ∧ n ≤ 0xdbff := ⟨halone.1, by omega⟩
          have hlone : ∀ b, Breaks b → (unicodeEscape (d ++ b) >>= fun y =>
              (readString fuel y.2).map fun z => (y.1 ++ z.1, z.2)) = .error .malformed := by
            intro b hb
            rw [unicodeEscape_lone digits hhigh hb]
            rfl
          -- Only another unit after a first half can make a pair with it.
          cases more with
          | nil => exact Or.inr (hlone _ (Or.inl ⟨_, _, rfl, by decide⟩))
          | plain form more => exact Or.inr (hlone _ (Or.inl ⟨_, _, rfl, form.2.1⟩))
          | letter form more => exact Or.inr (hlone _ (Or.inr ⟨_, _, rfl, letter_ne form⟩))
          | @unit e text m second more =>
            rw [List.length_cons, List.length_cons, List.length_append] at enough
            rw [List.cons_append, List.cons_append, List.append_assoc,
              unicodeEscape_high digits second hhigh]
            by_cases hpair : 0xdc00 ≤ m ∧ m ≤ 0xdfff
            · rw [if_pos hpair]
              exact (ih more (by omega)).map (.pair digits second hhigh hpair)
            · rw [if_neg hpair]
              exact Or.inr rfl
      · rw [unicodeEscape_point digits halone]
        exact (ih more (by omega)).map (.point digits halone)

/-- What a reader takes the bytes between quotes for. -/
def literal (content : Bytes) : StringLiteral :=
  match content.toString? with
  | some s => .ok s
  | none => .error .malformed

theorem literal_ofString (s : String) : literal (Bytes.ofString s) = .ok s := by
  unfold literal
  rw [Bytes.toString?_ofString]

theorem string_of_read {b content after rest : Bytes}
    (read : readString (b.length + 1) b = .ok (content, after))
    (skip : skipString (b.length + 1) b = .ok rest) :
    Scan.string b = .ok (literal content, rest) := by
  unfold Scan.string
  rw [read, skip]
  rfl

theorem string_of_fault {b rest : Bytes} {e : Fault}
    (read : readString (b.length + 1) b = .error e)
    (skip : skipString (b.length + 1) b = .ok rest) : Scan.string b = .ok (.error e, rest) := by
  unfold Scan.string
  rw [read, skip]
  rfl

/-- A text between quotes is read for what it says, and skipped. -/
theorem string_of_quotedText {s : StringLiteral} {b : Bytes} (h : QuotedText s b) :
    ∃ body, b = 0x22 :: body ∧ ∀ rest, Scan.string (body ++ rest) = .ok (s, rest) := by
  have hlength : ∀ text rest : Bytes, text.length < (text ++ 0x22 :: rest).length + 1 := by
    intro text rest
    rw [List.length_append]
    omega
  cases h with
  | @said s text content =>
    refine ⟨text ++ [0x22], rfl, ?_⟩
    intro rest
    rw [List.append_assoc, ← literal_ofString s]
    exact string_of_read (readString_of_said content (hlength text rest) rest)
      (skipString_of_quotable (quotable_of_said content) (hlength text rest) rest)
  | @nothing text form empty =>
    refine ⟨text ++ [0x22], rfl, ?_⟩
    intro rest
    rw [List.append_assoc]
    have hskip := skipString_of_quotable form (hlength text rest) rest
    rcases readString_of_quotable form (hlength text rest) rest with ⟨content, hsaid, hread⟩ | hread
    · have hliteral : literal content = .error .malformed := by
        unfold literal
        cases hs : content.toString? with
        | none => rfl
        | some s =>
          rw [Bytes.eq_ofString_of_toString? hs] at hsaid
          exact absurd hsaid (empty s)
      rw [← hliteral]
      exact string_of_read hread hskip
    · exact string_of_fault hread hskip

/-! ### Numbers -/

/-- What may follow a number. -/
def Ends (b : Bytes) : Prop :=
  ∀ c bs, b = c :: bs → isSpace c = true ∨ c = 0x2c ∨ c = 0x5d ∨ c = 0x7d

theorem stops_of_ends {c : UInt8} {b : Bytes} (h : Ends (c :: b)) :
    digit? c = none ∧ c ≠ 0x2e ∧ c ≠ 0x65 ∧ c ≠ 0x45 := by
  rcases h c b rfl with hspace | rfl | rfl | rfl
  · unfold isSpace at hspace
    simp only [Bool.or_eq_true, beq_iff_eq] at hspace
    rcases hspace with ((rfl | rfl) | rfl) | rfl <;> decide
  · decide
  · decide
  · decide

theorem digit?_ofNat {d : Nat} (h : d < 10) : digit? (UInt8.ofNat (0x30 + d)) = some d := by
  have hdigits : ∀ d < 10, digit? (UInt8.ofNat (0x30 + d)) = some d := by decide
  exact hdigits d h

/-- No digit comes next. -/
def NoDigit (b : Bytes) : Prop := ∀ c bs, b = c :: bs → digit? c = none

theorem digits_writeDigits {ds : List Nat} (h : ∀ d ∈ ds, d < 10) {rest : Bytes}
    (stop : NoDigit rest) : digits (Value.writeDigits ds ++ rest) = (ds, rest) := by
  induction ds with
  | nil =>
    cases rest with
    | nil => rfl
    | cons c bs =>
      show digits (c :: bs) = ([], c :: bs)
      rw [digits, stop c bs rfl]
  | cons d ds ih =>
    show digits (UInt8.ofNat (0x30 + d) :: (Value.writeDigits ds ++ rest)) = (d :: ds, rest)
    rw [digits, digit?_ofNat (h d List.mem_cons_self)]
    dsimp only
    rw [ih fun e he => h e (List.mem_cons_of_mem _ he)]

/-- Digits begin with a digit. -/
theorem digit?_head {ds : List Nat} (h : Digits ds) {rest bs : Bytes} {c : UInt8}
    (head : Value.writeDigits ds ++ rest = c :: bs) : digit? c ≠ none := by
  cases ds with
  | nil => exact absurd rfl h.nonempty
  | cons d ds =>
    have hc : UInt8.ofNat (0x30 + d) = c := (List.cons.inj head).1
    rw [← hc, digit?_ofNat (h.below d List.mem_cons_self)]
    exact Option.some_ne_none d

theorem someDigits_writeDigits {ds : List Nat} (h : Digits ds) {rest : Bytes}
    (stop : NoDigit rest) : someDigits (Value.writeDigits ds ++ rest) = .ok (ds, rest) := by
  unfold someDigits
  rw [digits_writeDigits h.below stop]
  cases ds with
  | nil => exact absurd rfl h.nonempty
  | cons d ds => rfl

theorem wholeDigits_writeDigits {ds : List Nat} (h : Digits ds)
    (alone : ∀ es, ds = 0 :: es → es = []) {rest : Bytes} (stop : NoDigit rest) :
    wholeDigits (Value.writeDigits ds ++ rest) = .ok (ds, rest) := by
  unfold wholeDigits
  rw [digits_writeDigits h.below stop]
  split
  · rename_i heq
    cases heq
    exact absurd rfl h.nonempty
  · rename_i heq
    cases heq
    cases alone _ rfl
  · rfl

theorem exponent_of_ends {rest : Bytes} (h : Ends rest) : exponent rest = .ok (none, rest) := by
  cases rest with
  | nil => rfl
  | cons c bs =>
    obtain ⟨-, -, hlower, hupper⟩ := stops_of_ends h
    unfold exponent
    dsimp only
    rw [if_neg]
    rintro (hc | hc)
    · exact hlower hc
    · exact hupper hc

theorem exponent_of_text {x : Option (Bool × List Nat)} {e rest : Bytes} (h : ExponentText x e)
    (ends : Ends rest) : exponent (e ++ rest) = .ok (x, rest) := by
  have hstop : NoDigit rest := fun c bs hrest => (stops_of_ends (hrest ▸ ends)).1
  cases h with
  | none => exact exponent_of_ends ends
  | @some mark negative sign ds letter signed digits =>
    have hsome := someDigits_writeDigits digits hstop
    rw [List.cons_append, List.append_assoc]
    unfold exponent
    dsimp only
    rw [if_pos letter]
    rcases List.mem_cons.mp signed with heq | signed
    · cases heq
      rw [List.nil_append]
      split
      · rename_i hcs
        exact absurd rfl (digit?_head digits hcs)
      · rename_i hcs
        exact absurd rfl (digit?_head digits hcs)
      · rw [hsome]
        rfl
    · rcases List.mem_cons.mp signed with heq | signed
      · cases heq
        show (someDigits (Value.writeDigits ds ++ rest) >>= _) = _
        rw [hsome]
        rfl
      · cases List.mem_singleton.mp signed
        show (someDigits (Value.writeDigits ds ++ rest) >>= _) = _
        rw [hsome]
        rfl

theorem stops_of_exponentText {x : Option (Bool × List Nat)} {e rest : Bytes}
    (h : ExponentText x e) (ends : Ends rest) (c : UInt8) (bs : Bytes)
    (head : e ++ rest = c :: bs) : digit? c = none ∧ c ≠ 0x2e := by
  cases h with
  | none =>
    rw [List.nil_append] at head
    obtain ⟨hdigit, hpoint, -, -⟩ := stops_of_ends (head ▸ ends)
    exact ⟨hdigit, hpoint⟩
  | some letter signed digits =>
    have hc := (List.cons.inj head).1
    rcases letter with rfl | rfl
    · rw [← hc]
      decide
    · rw [← hc]
      decide

theorem number_of_text {negative : Bool} {whole fraction : List Nat}
    {x : Option (Bool × List Nat)} {f e rest : Bytes} (digits : Digits whole)
    (alone : ∀ ds, whole = 0 :: ds → ds = []) (fractional : FractionText fraction f)
    (exponential : ExponentText x e) (ends : Ends rest) :
    number negative (Value.writeDigits whole ++ (f ++ (e ++ rest))) =
      .ok (⟨negative, whole, fraction, x⟩, rest) := by
  have hexponent := exponent_of_text exponential ends
  have hstops := stops_of_exponentText exponential ends
  have hnodigit : NoDigit (e ++ rest) := fun c bs head => (hstops c bs head).1
  unfold number
  cases fractional with
  | none =>
    rw [List.nil_append, wholeDigits_writeDigits digits alone hnodigit]
    dsimp only [bind, Except.bind]
    split
    · rename_i head
      exact absurd rfl (hstops _ _ head).2
    · rw [hexponent]
      rfl
  | some fractionDigits =>
    have hpoint : NoDigit (0x2e :: (Value.writeDigits fraction ++ (e ++ rest))) := by
      intro c bs head
      rw [← (List.cons.inj head).1]
      decide
    rw [List.cons_append, wholeDigits_writeDigits digits alone hpoint]
    dsimp only [bind, Except.bind]
    have hsome := someDigits_writeDigits fractionDigits hnodigit
    split
    · rename_i head
      rw [← (List.cons.inj head).2, hsome]
      dsimp only
      rw [hexponent]
      rfl
    · rename_i other
      exact absurd rfl (other _)

end Json

end ProposerBook
