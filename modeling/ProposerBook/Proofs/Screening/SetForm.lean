/-
Which JSON values are a set of addresses.

Null is the empty set.  An array is a set if each of its items is a text that spells an address,
and an object is one if each of its keys is, whatever its values are.  Nothing else is a set, and
a text that is no JSON is none either.

The two forms are read in step.  A key of an object is looked at after its value, but in a text
that is JSON there is nothing wrong with the value, so the keys are gone through as the items of
an array would be.  Hence the same texts, as items or as keys, make the same set, or both forms
are refused for the first of them that spells no address.
-/
import ProposerBook.Proofs.Json.Decode
import ProposerBook.Proofs.Json.Record
import ProposerBook.Proofs.Json.Sound
import ProposerBook.Proofs.Screening.JsonForm

namespace ProposerBook

namespace JsonForm

open Json (Refusal Tree)

/-! ### Texts that should be addresses -/

theorem address_eq_ok_iff {s : String} {a : Address} : address s = .ok a ↔ Address.Spells s a := by
  rw [← Address.parse_trim_eq_ok_iff]
  unfold address
  cases Address.parse (Text.trim s) with
  | ok c => simp
  | error e => simp

theorem address_of_bad {s : String} {cause : Address.ParseError}
    (h : Address.parse (Text.trim s) = .error cause) :
    address s = .error (.invalid ⟨s, cause⟩) := by
  unfold address
  rw [h]

/-- An item of an array that should hold addresses is treated as its text. -/
theorem item_text (s : String) : (do address (← Json.string (.string (.ok s)))) = address s :=
  Json.string_bind s address

theorem item_eq_ok_iff {t : Tree} {a : Address} :
    (do address (← Json.string t)) = .ok a ↔ ∃ s, t = .string (.ok s) ∧ Address.Spells s a := by
  rw [bind_eq_ok_iff]
  simp only [Json.string_eq_ok_iff, address_eq_ok_iff]

/-! ### Values that are sets -/

theorem items_eq_ok_iff_spelled {ts : List Tree} {as : List Address} :
    Json.items (fun t => do address (← Json.string t)) ts = .ok as ↔
      ∃ ss : List String, ts = ss.map (fun s => .string (.ok s)) ∧
        List.Forall₂ Address.Spells ss as := by
  constructor
  · intro h
    induction Json.items_eq_ok_iff.mp h with
    | nil => exact ⟨[], rfl, .nil⟩
    | @cons t a ts as hta hmore ih =>
      obtain ⟨s, rfl, hsa⟩ := item_eq_ok_iff.mp hta
      obtain ⟨ss, rfl, hss⟩ := ih (Json.items_eq_ok_iff.mpr hmore)
      exact ⟨s :: ss, rfl, .cons hsa hss⟩
  · rintro ⟨ss, rfl, hss⟩
    exact items_of_spelled hss

/-- Keys are read after their values, and all of them must be addresses. -/
theorem addressKeys_eq_ok {es : List (Json.StringLiteral × Tree)} {as : List Address}
    (h : addressKeys es = .ok as) : ∃ fs : List (String × Tree), es = Json.keyed fs ∧
      List.Forall₂ (fun e a => Address.Spells e.1 a) fs as ∧ ∀ e ∈ fs, e.2.skip = none := by
  induction es generalizing as with
  | nil =>
    cases h
    exact ⟨[], rfl, .nil, nofun⟩
  | cons e es ih =>
    obtain ⟨k, t⟩ := e
    obtain ⟨s, hkey, hread⟩ := bind_eq_ok_iff.mp h
    obtain ⟨u, hskip, hbehind⟩ := bind_eq_ok_iff.mp hread
    obtain ⟨a, ha, hmore⟩ := bind_eq_ok_iff.mp hbehind
    obtain ⟨bs, hbs, hend⟩ := bind_eq_ok_iff.mp hmore
    cases hend
    obtain ⟨fs, rfl, hfs, hwhole⟩ := ih hbs
    rw [Json.liftFault_eq_ok_iff] at hkey
    subst hkey
    refine ⟨(s, t) :: fs, rfl, .cons (address_eq_ok_iff.mp ha) hfs, ?_⟩
    exact List.forall_mem_cons.mpr ⟨Json.ignored_eq_ok_iff.mp hskip, hwhole⟩

theorem skip_of_set_eq_ok {t : Tree} {s : AddressSet} (h : set t = .ok s) : t.skip = none := by
  cases t with
  | null => rfl
  | array ts stop =>
    obtain ⟨as, hitems, hmore⟩ := bind_eq_ok_iff.mp h
    obtain ⟨u, hstop, -⟩ := bind_eq_ok_iff.mp hmore
    obtain ⟨ss, rfl, -⟩ := items_eq_ok_iff_spelled.mp hitems
    rw [Json.closing_eq_ok_iff.mp hstop]
    refine Option.or_eq_none_iff.mpr ⟨Json.skipItems_eq_none_iff.mpr ?_, rfl⟩
    intro t ht
    obtain ⟨s, -, rfl⟩ := List.mem_map.mp ht
    rfl
  | object es stop =>
    obtain ⟨as, hkeys, hmore⟩ := bind_eq_ok_iff.mp h
    obtain ⟨u, hstop, -⟩ := bind_eq_ok_iff.mp hmore
    obtain ⟨fs, rfl, -, hwhole⟩ := addressKeys_eq_ok hkeys
    rw [Json.closing_eq_ok_iff.mp hstop]
    refine Option.or_eq_none_iff.mpr ⟨Json.skipEntries_eq_none_iff.mpr ?_, rfl⟩
    intro e he
    obtain ⟨f, hf, rfl⟩ := List.mem_map.mp he
    exact hwhole f hf
  | _ => exact absurd h Json.refuse_ne_ok

/-- What a value says of a set, where nothing is wrong with the value. -/
theorem set_eq_ok_iff {t : Tree} {s : AddressSet} (whole : t.skip = none) :
    set t = .ok s ↔ (t = .null ∧ s = {}) ∨ ∃ as, Holds t as ∧ ∀ a, a ∈ s ↔ a ∈ as := by
  constructor
  · intro h
    cases t with
    | null =>
      cases h
      exact Or.inl ⟨rfl, rfl⟩
    | array ts stop =>
      obtain ⟨as, hitems, hmore⟩ := bind_eq_ok_iff.mp h
      obtain ⟨u, hstop, hend⟩ := bind_eq_ok_iff.mp hmore
      obtain ⟨ss, rfl, hss⟩ := items_eq_ok_iff_spelled.mp hitems
      cases hend
      rw [Json.closing_eq_ok_iff.mp hstop]
      exact Or.inr ⟨as, .array hss, fun a => AddressSet.mem_ofList⟩
    | object es stop =>
      obtain ⟨as, hkeys, hmore⟩ := bind_eq_ok_iff.mp h
      obtain ⟨u, hstop, hend⟩ := bind_eq_ok_iff.mp hmore
      obtain ⟨fs, rfl, hfs, -⟩ := addressKeys_eq_ok hkeys
      cases hend
      rw [Json.closing_eq_ok_iff.mp hstop]
      exact Or.inr ⟨as, .object hfs, fun a => AddressSet.mem_ofList⟩
    | _ => exact absurd h Json.refuse_ne_ok
  · rintro (⟨rfl, rfl⟩ | ⟨as, holds, hmem⟩)
    · rfl
    · rw [set_of_holds holds whole, Except.ok.injEq]
      refine AddressSet.ext fun a => ?_
      rw [AddressSet.mem_ofList, hmem]

/-! ### The two forms in step -/

/-- A value with nothing wrong in it does not matter. -/
theorem addressKeys_cons {t : Tree} (whole : t.skip = none) (s : String)
    (es : List (Json.StringLiteral × Tree)) : addressKeys ((.ok s, t) :: es) =
      (do let a ← address s; let as ← addressKeys es; return a :: as) := by
  rw [addressKeys.eq_2, Json.liftFault_ok, ok_bind, Json.ignored_of_skip whole, ok_bind]

/-- Keys are gone through as the items of an array. -/
theorem addressKeys_eq_items {es : List (String × Tree)} (whole : ∀ e ∈ es, e.2.skip = none) :
    addressKeys (Json.keyed es) = Json.items (fun t => do address (← Json.string t))
      (es.map fun e => .string (.ok e.1)) := by
  induction es with
  | nil => rfl
  | cons e es ih =>
    have hmore := ih fun e' he' => whole e' (List.mem_cons_of_mem _ he')
    have hkeyed : Json.keyed (e :: es) = (.ok e.1, e.2) :: Json.keyed es := rfl
    rw [hkeyed, addressKeys_cons (whole e List.mem_cons_self), hmore, List.map_cons,
      Json.items.eq_2, item_text]

theorem set_array_eq (ts : List Tree) : set (.array ts none) =
    (Json.items (fun t => do address (← Json.string t)) ts).map AddressSet.ofList := by
  show (Json.items _ ts >>= fun as => .ok (AddressSet.ofList as)) = _
  cases Json.items (fun t => do address (← Json.string t)) ts with
  | error e => rfl
  | ok as => rfl

theorem set_object_eq (es : List (Json.StringLiteral × Tree)) :
    set (.object es none) = (addressKeys es).map AddressSet.ofList := by
  show (addressKeys es >>= fun as => .ok (AddressSet.ofList as)) = _
  cases addressKeys es with
  | error e => rfl
  | ok as => rfl

theorem set_object_eq_array {es : List (String × Tree)} (whole : ∀ e ∈ es, e.2.skip = none) :
    set (.object (Json.keyed es) none) =
      set (.array (es.map fun e => .string (.ok e.1)) none) := by
  rw [set_object_eq, set_array_eq, addressKeys_eq_items whole]

/-- Texts that all spell addresses make a set; otherwise the first that spells none is told. -/
theorem set_texts (es : List (String × Tree)) :
    (∃ as, List.Forall₂ (fun e a => Address.Spells e.1 a) es as ∧
      set (.array (es.map fun e => .string (.ok e.1)) none) = .ok (AddressSet.ofList as)) ∨
    ∃ before bad after cause, es = before ++ bad :: after ∧
      (∀ e ∈ before, ∃ a, Address.Spells e.1 a) ∧
      Address.parse (Text.trim bad.1) = .error cause ∧
      set (.array (es.map fun e => .string (.ok e.1)) none) = .error (.invalid ⟨bad.1, cause⟩) := by
  rw [set_array_eq]
  cases hitems : Json.items (fun t => do address (← Json.string t))
      (es.map fun e => .string (.ok e.1)) with
  | ok as =>
    refine Or.inl ⟨as, ?_, rfl⟩
    have hall := Json.items_eq_ok_iff.mp hitems
    rw [List.forall₂_map_left_iff] at hall
    refine hall.imp fun e a hitem => ?_
    rw [item_text] at hitem
    exact address_eq_ok_iff.mp hitem
  | error refusal =>
    obtain ⟨front, t, back, hsplit, fine, hbad⟩ := Json.items_eq_error_iff.mp hitems
    obtain ⟨before, rest, rfl, rfl, hrest⟩ := List.map_eq_append_iff.mp hsplit
    obtain ⟨bad, after, rfl, rfl, rfl⟩ := List.map_eq_cons_iff.mp hrest
    cases hparse : Address.parse (Text.trim bad.1) with
    | ok a =>
      rw [item_text, address_eq_ok_iff.mpr (Address.parse_trim_eq_ok_iff.mp hparse)] at hbad
      cases hbad
    | error cause =>
      rw [item_text, address_of_bad hparse, Except.error.injEq] at hbad
      subst hbad
      refine Or.inr ⟨before, bad, after, cause, rfl, ?_, hparse, rfl⟩
      intro e he
      obtain ⟨a, ha⟩ := fine _ (List.mem_map_of_mem he)
      rw [item_text] at ha
      exact ⟨a, address_eq_ok_iff.mp ha⟩

/-! ### Texts that are sets -/

/-- **Which JSON values are a set of addresses.**  Only JSON is read.  A value is a set just if it
is null, which is the empty one, or holds addresses as items or as keys, and then they are its
members.  The same texts as items and as keys, with whatever behind them, are read alike: as the
addresses that they spell, or as the first that spells none. -/
theorem reads_set :
    (∀ b s, Json.read set b = .ok s → ∃ v, Json.Spells (.item v) b) ∧
    (∀ v b, Json.Spells (.item v) b → ∀ s, Json.read set b = .ok s ↔
      (v = .null ∧ s = {}) ∨ ∃ as, Holds v as ∧ ∀ a, a ∈ s ↔ a ∈ as) ∧
    (∀ s a, Address.Spells s a ↔ Address.parse (Text.trim s) = .ok a) ∧
    ∀ (es : List (String × Tree)) (array object : Bytes),
      Json.Spells (.item (.array (es.map fun e => .string (.ok e.1)) none)) array →
      Json.Spells (.item (.object (Json.keyed es) none)) object →
      Json.read set array = Json.read set object ∧
      ((∃ as s, List.Forall₂ (fun e a => Address.Spells e.1 a) es as ∧
          Json.read set array = .ok s ∧ ∀ a, a ∈ s ↔ a ∈ as) ∨
        ∃ before bad after cause, es = before ++ bad :: after ∧
          (∀ e ∈ before, ∃ a, Address.Spells e.1 a) ∧
          Address.parse (Text.trim bad.1) = .error cause ∧
          Json.read set array = .error (.invalid ⟨bad.1, cause⟩)) := by
  refine ⟨?_, ?_, fun s a => Address.parse_trim_eq_ok_iff.symm, ?_⟩
  · intro b s h
    obtain ⟨v, spelled, -⟩ := (Json.read_eq_ok_iff skip_of_set_eq_ok).mp h
    exact ⟨v, spelled⟩
  · intro v b spelled s
    rw [Json.read_of_spells spelled]
    exact set_eq_ok_iff (Json.skip_of_spells spelled)
  · intro es array object harray hobject
    have whole : (Tree.object (Json.keyed es) none).skip = none := Json.skip_of_spells hobject
    have hsame := set_object_eq_array (Json.skip_of_keyed (Option.or_eq_none_iff.mp whole).1)
    rw [Json.read_of_spells harray, Json.read_of_spells hobject, hsame]
    refine ⟨rfl, ?_⟩
    rcases set_texts es with ⟨as, hall, hset⟩ | hbad
    · exact Or.inl ⟨as, AddressSet.ofList as, hall, hset, fun a => AddressSet.mem_ofList⟩
    · exact Or.inr hbad

/-- Keys that spell one address in two ways, with values of all sorts; and a key that spells none
between one that does and another that does not. -/
theorem reads_set_mixed :
    let a : Address := .repeated 0xab
    let c : Address := .repeated 0x07
    let mixed := (List.replicate 20 ['A', 'b']).flatten
    let plain := (List.replicate 20 ['0', '7']).flatten
    let first := String.ofList ([' '] ++ (['0', 'X'] ++ mixed) ++ ['\n'])
    let again := String.ofList ([] ++ ([] ++ mixed) ++ [])
    let other := String.ofList ([] ++ (['0', 'x'] ++ plain) ++ [])
    let odd : Json.Value := .object [("", .array [.nat 7, .null, .object []]), ("", .bool true)]
    let fine : Json.Value := .object [(first, odd), (again, .null), (other, .string other)]
    let bad : Json.Value := .object [(first, odd), ("0x12", .array []), ("", .null)]
    let items : Json.Value := .array [.string first, .string "0x12", .string ""]
    (∃ s, Json.read set fine.write = .ok s ∧ ∀ x, x ∈ s ↔ x ∈ [a, a, c]) ∧
    Json.read set items.write = Json.read set bad.write ∧
      ∃ cause, Json.read set items.write = .error (.invalid ⟨"0x12", cause⟩) := by
  intro a c mixed plain first again other odd fine bad items
  have hmixed : Hex.SpelledBy a.bytes mixed := by unfold Hex.SpelledBy; decide
  have hplain : Hex.SpelledBy c.bytes plain := by unfold Hex.SpelledBy; decide
  have hfirst : Address.Spells first a :=
    ⟨[' '], ['0', 'X'], mixed, ['\n'], String.toList_ofList, List.forall_mem_singleton.mpr rfl,
      by decide, hmixed, List.forall_mem_singleton.mpr rfl⟩
  have hagain : Address.Spells again a :=
    ⟨[], [], mixed, [], String.toList_ofList, nofun, by decide, hmixed, nofun⟩
  have hother : Address.Spells other c :=
    ⟨[], ['0', 'x'], plain, [], String.toList_ofList, nofun, by decide, hplain, nofun⟩
  have hodd : odd.Sound := ⟨⟨Json.sound_nat 7, trivial, trivial, trivial⟩, trivial, trivial⟩
  have sound : fine.Sound := ⟨hodd, trivial, trivial, trivial⟩
  have hholds : Holds (.ofValue fine) [a, a, c] := by
    show Holds (.object (Json.keyed [(_, _), (_, _), (_, _)]) none) _
    exact .object (.cons hfirst (.cons hagain (.cons hother .nil)))
  have hshort : ∀ x, ¬Address.Spells "0x12" x := fun x => Address.not_spells_of_short (by decide)
  have htexts := Json.spells_write items ⟨trivial, trivial, trivial, trivial⟩
  have hkeys := Json.spells_write bad ⟨hodd, trivial, trivial, trivial⟩
  refine ⟨⟨AddressSet.ofList [a, a, c], ?_, fun x => AddressSet.mem_ofList⟩, ?_⟩
  · have hread := reads_set.2.1 _ _ (Json.spells_write fine sound).compact
    exact (hread _).mpr (Or.inr ⟨[a, a, c], hholds, fun x => AddressSet.mem_ofList⟩)
  · obtain ⟨hsame, hread⟩ := reads_set.2.2.2
      [(first, .ofValue odd), ("0x12", .ofValue (.array [])), ("", .null)] _ _
      htexts.compact hkeys.compact
    refine ⟨hsame, ?_⟩
    rcases hread with ⟨as, s, hall, -, -⟩ | ⟨before, e, after, cause, hes, hbefore, hbad, hread⟩
    · cases hall with
      | cons _ hmore =>
        cases hmore with
        | cons hspells _ => exact absurd hspells (hshort _)
    · cases before with
      | nil =>
        obtain ⟨rfl, -⟩ := List.cons.inj hes
        cases hfirst.parse_trim.symm.trans hbad
      | cons e' before =>
        obtain ⟨-, hes⟩ := List.cons.inj hes
        cases before with
        | nil =>
          obtain ⟨rfl, -⟩ := List.cons.inj hes
          exact ⟨cause, hread⟩
        | cons e'' before =>
          obtain ⟨rfl, -⟩ := List.cons.inj hes
          obtain ⟨x, hx⟩ := hbefore _ (List.mem_cons_of_mem _ List.mem_cons_self)
          exact absurd hx (hshort x)

end JsonForm

end ProposerBook
