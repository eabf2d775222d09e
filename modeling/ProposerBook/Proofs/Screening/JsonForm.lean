/-
The two forms of screening lists mean the same.

`Written` says which JSON texts write a sequence of entries: an object that has the names in
order, each with its addresses, as an array of their texts or as an object that has them as
keys.  Names and addresses may come twice, an address may be spelled in every way, and what
stands behind an address that is a key does not matter.  Every such text is read, and what is
read is what the binary form of the same entries is read as, because both readers hand all
entries over in order and the table keeps the last.

What is written of lists is a text of this kind.  So the round trips, through either form or
through both, follow from what is known of arrangements.
-/
import ProposerBook.Proofs.Address
import ProposerBook.Proofs.Json.Decode
import ProposerBook.Proofs.Json.Write
import ProposerBook.Proofs.Snapshot.RoundTrip
import ProposerBook.Screening.JsonForm

namespace ProposerBook

namespace JsonForm

open Json (Tree)

/-! ### Texts that write entries -/

/-- A tree that holds addresses in order, as an array of texts or as the keys of an object. -/
inductive Holds : Tree → List Address → Prop
  | array {ss : List String} {as : List Address} (spelled : List.Forall₂ Address.Spells ss as) :
    Holds (.array (ss.map fun s => .string (.ok s)) none) as
  | object {es : List (String × Tree)} {as : List Address}
      (spelled : List.Forall₂ (fun e a => Address.Spells e.1 a) es as) :
    Holds (.object (Json.keyed es) none) as

/-- A text that writes entries in order. -/
def Written (es : List (String × List Address)) (b : Bytes) : Prop :=
  ∃ ts : List (String × Tree), Json.Spells (.item (.object (Json.keyed ts) none)) b ∧
    List.Forall₂ (fun t e => t.1 = e.1 ∧ Holds t.2 e.2) ts es

/-! ### Reading them -/

theorem address_of_spells {s : String} {a : Address} (h : Address.Spells s a) :
    address s = .ok a := by
  unfold address
  rw [h.parse_trim]

theorem items_of_spelled {ss : List String} {as : List Address}
    (h : List.Forall₂ Address.Spells ss as) :
    Json.items (fun t => do address (← Json.string t)) (ss.map fun s => .string (.ok s)) =
      .ok as := by
  induction h with
  | nil => rfl
  | @cons s a ss as hsa _ ih =>
    refine bind_eq_ok_iff.mpr ⟨a, ?_, bind_eq_ok_iff.mpr ⟨as, ih, rfl⟩⟩
    exact bind_eq_ok_iff.mpr ⟨s, rfl, address_of_spells hsa⟩

theorem addressKeys_of_spelled {es : List (String × Tree)} {as : List Address}
    (h : List.Forall₂ (fun e a => Address.Spells e.1 a) es as)
    (whole : ∀ e ∈ es, e.2.skip = none) : addressKeys (Json.keyed es) = .ok as := by
  induction h with
  | nil => rfl
  | @cons e a es as hea _ ih =>
    have hmore := ih fun e' he' => whole e' (List.mem_cons_of_mem _ he')
    have hignored : Json.ignored e.2 = (.ok () : Except (Json.Refusal BadAddress) Unit) :=
      Json.ignored_eq_ok_iff.mpr (whole e List.mem_cons_self)
    refine bind_eq_ok_iff.mpr ⟨e.1, rfl, bind_eq_ok_iff.mpr ⟨(), hignored, ?_⟩⟩
    exact bind_eq_ok_iff.mpr ⟨a, address_of_spells hea, bind_eq_ok_iff.mpr ⟨as, hmore, rfl⟩⟩

theorem set_of_holds {t : Tree} {as : List Address} (h : Holds t as) (whole : t.skip = none) :
    set t = .ok (AddressSet.ofList as) := by
  cases h with
  | array spelled =>
    refine bind_eq_ok_iff.mpr ⟨as, items_of_spelled spelled, ?_⟩
    exact bind_eq_ok_iff.mpr ⟨(), rfl, rfl⟩
  | object spelled =>
    have hskip := Json.skip_of_keyed (Option.or_eq_none_iff.mp whole).1
    refine bind_eq_ok_iff.mpr ⟨as, addressKeys_of_spelled spelled hskip, ?_⟩
    exact bind_eq_ok_iff.mpr ⟨(), rfl, rfl⟩

theorem pairs_of_written {ts : List (String × Tree)} {es : List (String × List Address)}
    (h : List.Forall₂ (fun t e => t.1 = e.1 ∧ Holds t.2 e.2) ts es)
    (whole : ∀ t ∈ ts, t.2.skip = none) :
    Json.pairs set (Json.keyed ts) = .ok (es.map fun e => (e.1, AddressSet.ofList e.2)) := by
  induction h with
  | nil => rfl
  | @cons t e ts es hte _ ih =>
    have hmore := ih fun t' ht' => whole t' (List.mem_cons_of_mem _ ht')
    have hset := set_of_holds hte.2 (whole t List.mem_cons_self)
    refine bind_eq_ok_iff.mpr ⟨t.1, rfl, bind_eq_ok_iff.mpr ⟨_, hset, ?_⟩⟩
    refine bind_eq_ok_iff.mpr ⟨_, hmore, ?_⟩
    rw [hte.1]
    rfl

/-- A text that writes entries is read, and later entries replace earlier ones. -/
theorem read_of_written {es : List (String × List Address)} {b : Bytes} (h : Written es b) :
    Json.read lists b = .ok (Table.ofList (es.map fun e => (e.1, AddressSet.ofList e.2))) := by
  obtain ⟨ts, hspells, hts⟩ := h
  have hskip : (Tree.object (Json.keyed ts) none).skip = none := Json.skip_of_spells hspells
  have hpairs := pairs_of_written hts (Json.skip_of_keyed (Option.or_eq_none_iff.mp hskip).1)
  have hmap : Json.map set (.object (Json.keyed ts) none) = .ok _ :=
    bind_eq_ok_iff.mpr ⟨_, hpairs, bind_eq_ok_iff.mpr ⟨(), rfl, rfl⟩⟩
  rw [Json.read_of_spells hspells]
  unfold lists
  rw [hmap]
  rfl

/-! ### Writing -/

theorem treesOf_texts (as : List Address) : Json.treesOf (as.map fun a => .string a.toText) =
    (as.map Address.toText).map fun s => .string (.ok s) := by
  induction as with
  | nil => rfl
  | cons a as ih =>
    show Tree.string (.ok a.toText) :: Json.treesOf _ = _
    rw [ih]
    rfl

theorem holds_ofAddresses (as : List Address) : Holds (.ofValue (ofAddresses as)) as := by
  have hspelled : List.Forall₂ Address.Spells (as.map Address.toText) as := by
    rw [List.forall₂_map_left_iff, List.forall₂_same]
    exact fun a _ => Address.spells_toText a
  have hholds := Holds.array hspelled
  rw [← treesOf_texts] at hholds
  exact hholds

theorem entriesOf_lists (es : List (String × List Address)) :
    Json.entriesOf (es.map fun e => (e.1, ofAddresses e.2)) =
      Json.keyed (es.map fun e => (e.1, .ofValue (ofAddresses e.2))) := by
  induction es with
  | nil => rfl
  | cons e es ih =>
    show (.ok e.1, Tree.ofValue (ofAddresses e.2)) :: Json.entriesOf _ = _
    rw [ih]
    rfl

theorem sound_ofAddresses (as : List Address) : (ofAddresses as).Sound := by
  show Json.ItemsSound _
  induction as with
  | nil => exact trivial
  | cons a as ih => exact ⟨trivial, ih⟩

theorem sound_ofListsInOrder (es : List (String × List Address)) : (ofListsInOrder es).Sound := by
  show Json.EntriesSound _
  induction es with
  | nil => exact trivial
  | cons e es ih => exact ⟨sound_ofAddresses e.2, ih⟩

/-- What is written of entries writes them. -/
theorem written_write (es : List (String × List Address)) :
    Written es (ofListsInOrder es).write := by
  have hspells := (Json.spells_write _ (sound_ofListsInOrder es)).compact
  have htree : Tree.ofValue (ofListsInOrder es) = .object (Json.entriesOf _) none := rfl
  rw [htree, entriesOf_lists] at hspells
  refine ⟨_, hspells, ?_⟩
  rw [List.forall₂_map_left_iff, List.forall₂_same]
  exact fun e _ => ⟨rfl, holds_ofAddresses e.2⟩

/-! ### Both forms -/

/-- What entries in order say about lists. -/
structure Decides (es : List (String × List Address)) (lists : NamedLists) : Prop where
  /-- The names are those that occur. -/
  names : ∀ name, lists.contains name = true ↔ ∃ e ∈ es, e.1 = name
  /-- The last entry with a name has the list, and none before it has a share in it. -/
  last : ∀ fs e gs, es = fs ++ e :: gs → (∀ g ∈ gs, g.1 ≠ e.1) →
    ∃ s, lists.get? e.1 = some s ∧ ∀ a, a ∈ s ↔ a ∈ e.2

theorem decides_ofList (es : List (String × List Address)) :
    Decides es (Table.ofList (es.map fun e => (e.1, AddressSet.ofList e.2))) := by
  refine ⟨?_, ?_⟩
  · intro name
    rw [Table.contains_iff, ← Table.mem_keys_iff, Table.mem_keys_ofList]
    refine ⟨?_, ?_⟩
    · rintro ⟨x, hx, rfl⟩
      obtain ⟨e, he, rfl⟩ := List.mem_map.mp hx
      exact ⟨e, he, rfl⟩
    · rintro ⟨e, he, rfl⟩
      exact ⟨_, List.mem_map_of_mem he, rfl⟩
  · rintro fs e gs rfl hgs
    rw [List.map_append, List.map_cons]
    refine ⟨AddressSet.ofList e.2, Table.get?_insertAll_of_last ?_, fun a => AddressSet.mem_ofList⟩
    intro x hx
    obtain ⟨g, hg, rfl⟩ := List.mem_map.mp hx
    exact hgs g hg

/-- **The two forms mean the same.**  A JSON text that writes entries and the bytes that write the
same entries are both read, as the same lists, in which the last entry with a name has the list. -/
theorem read_and_decode_of_written {es : List (String × List Address)} {b : Bytes}
    (written : Written es b) (count : es.length < Word.bound)
    (fits : ∀ e ∈ es, Snapshot.EntryFits e) :
    ∃ l, Json.read lists b = .ok l ∧ Snapshot.decode (Snapshot.encodeInOrder es) = .ok l ∧
      Decides es l := by
  have hdecode := Snapshot.decode_encodeInOrder_append count fits []
  rw [List.append_nil] at hdecode
  exact ⟨_, read_of_written written, hdecode, decides_ofList es⟩

/-- One name twice, with one address in several spellings, and blanks in the text. -/
theorem read_and_decode_of_written_repeated :
    let a : Address := .repeated 0xab
    let c : Address := .repeated 0x07
    let mixed := (List.replicate 20 ['A', 'b']).flatten
    let plain := (List.replicate 20 ['0', '7']).flatten
    let keys : Json.Value := .object [
      (String.ofList ([' '] ++ (['0', 'X'] ++ mixed) ++ ['\n']), .array [.nat 7, .null]),
      (String.ofList ([] ++ (['0', 'x'] ++ mixed) ++ []), .string "x"),
      (String.ofList ([] ++ ([] ++ plain) ++ [' ']), .bool true)]
    let text : Json.Value := .object [("ofac", ofAddresses [a]), ("", .array []), ("ofac", keys)]
    let es := [("ofac", [a]), ("", []), ("ofac", [a, a, c])]
    let b := [0x0a, 0x20] ++ (text.write ++ [0x0d])
    Written es b ∧ es.length < Word.bound ∧ (∀ e ∈ es, Snapshot.EntryFits e) ∧
      ∃ l, Json.read lists b = .ok l ∧ Snapshot.decode (Snapshot.encodeInOrder es) = .ok l ∧
        Decides es l := by
  intro a c mixed plain keys text es b
  have hmixed : Hex.SpelledBy a.bytes mixed := by unfold Hex.SpelledBy; decide
  have hplain : Hex.SpelledBy c.bytes plain := by unfold Hex.SpelledBy; decide
  have hkeys : Holds (.ofValue keys) [a, a, c] := by
    show Holds (.object (Json.keyed [(_, _), (_, _), (_, _)]) none) _
    refine .object (.cons ?_ (.cons ?_ (.cons ?_ .nil)))
    · exact ⟨[' '], ['0', 'X'], mixed, ['\n'], String.toList_ofList,
        List.forall_mem_singleton.mpr rfl, by decide, hmixed, List.forall_mem_singleton.mpr rfl⟩
    · exact ⟨[], ['0', 'x'], mixed, [], String.toList_ofList, nofun, by decide, hmixed, nofun⟩
    · exact ⟨[], [], plain, [' '], String.toList_ofList, nofun, by decide, hplain,
        List.forall_mem_singleton.mpr rfl⟩
  have sound : text.Sound :=
    ⟨sound_ofAddresses [a], trivial,
      ⟨⟨Json.sound_nat 7, trivial, trivial⟩, trivial, trivial, trivial⟩, trivial⟩
  have hspells : Json.Spells (.item (.ofValue text)) b :=
    .item (List.forall_mem_cons.mpr ⟨rfl, List.forall_mem_singleton.mpr rfl⟩)
      (Json.spells_write text sound) (List.forall_mem_singleton.mpr rfl)
  have written : Written es b :=
    ⟨[("ofac", .ofValue (ofAddresses [a])), ("", .ofValue (.array [])), ("ofac", .ofValue keys)],
      hspells, .cons ⟨rfl, holds_ofAddresses [a]⟩ (.cons ⟨rfl, holds_ofAddresses []⟩
        (.cons ⟨rfl, hkeys⟩ .nil))⟩
  have count : es.length < Word.bound := by decide
  have fits : ∀ e ∈ es, Snapshot.EntryFits e := by unfold Snapshot.EntryFits; decide
  exact ⟨written, count, fits, read_and_decode_of_written written count fits⟩

/-- However lists are arranged, their text is read back. -/
theorem read_of_arranges {l : NamedLists} {es : List (String × List Address)}
    (h : Snapshot.Arranges l es) : Json.read lists (ofListsInOrder es).write = .ok l := by
  obtain ⟨order, hperm, hall⟩ := h
  rw [read_of_written (written_write es), Snapshot.map_ofList_eq hall, Table.ofList_of_perm hperm]

/-- **Lists go through JSON, and through JSON and bytes one after the other, unchanged**, however
they are arranged each time they are written. -/
theorem round_trips {l : NamedLists} {es : List (String × List Address)}
    (arranged : Snapshot.Arranges l es) :
    Json.read lists (ofListsInOrder es).write = .ok l ∧
    (Snapshot.Fits l →
      (∃ m, Json.read lists (ofListsInOrder es).write = .ok m ∧ ∀ fs, Snapshot.Arranges m fs →
        Snapshot.decode (Snapshot.encodeInOrder fs) = .ok l) ∧
      (∃ m, Snapshot.decode (Snapshot.encodeInOrder es) = .ok m ∧ ∀ fs, Snapshot.Arranges m fs →
        Json.read lists (ofListsInOrder fs).write = .ok l)) := by
  refine ⟨read_of_arranges arranged, ?_⟩
  intro fits
  have hdecode : ∀ {fs}, Snapshot.Arranges l fs →
      Snapshot.decode (Snapshot.encodeInOrder fs) = .ok l := by
    intro fs hfs
    have hany := Snapshot.decode_encodeInOrder_of_arranges fits hfs []
    rwa [List.append_nil] at hany
  exact ⟨⟨l, read_of_arranges arranged, fun _ => hdecode⟩,
    ⟨l, hdecode arranged, fun _ => read_of_arranges⟩⟩

/-- A list without a name, and one whose name has to be escaped, in descending order. -/
theorem round_trips_descending :
    let low : Address := .repeated 1
    let high : Address := .repeated 0xab
    let l := Table.ofList [("", {}), ("\"\\\n\u0001\u00e9", AddressSet.ofList [low, high])]
    let es := [("\"\\\n\u0001\u00e9", [high, low]), ("", [])]
    Snapshot.Arranges l es ∧ Snapshot.Fits l ∧
      Json.read lists (ofListsInOrder es).write = .ok l ∧
      Snapshot.decode (Snapshot.encodeInOrder es) = .ok l := by
  intro low high l es
  have hentries : l.entries =
      [("", {}), ("\"\\\n\u0001\u00e9", AddressSet.ofList [low, high])] := by decide
  have arranged : Snapshot.Arranges l es := by
    refine ⟨[("\"\\\n\u0001\u00e9", AddressSet.ofList [low, high]), ("", {})], ?_, ?_⟩
    · rw [hentries]
      exact List.Perm.swap _ _ _
    · exact .cons ⟨rfl, List.Perm.swap _ _ _⟩ (.cons ⟨rfl, .refl _⟩ .nil)
  have fits : Snapshot.Fits l := by
    refine ⟨by decide, ?_, ?_⟩ <;> decide
  obtain ⟨hread, hboth⟩ := round_trips arranged
  obtain ⟨⟨m, hm, hbinary⟩, -⟩ := hboth fits
  rw [hread] at hm
  cases hm
  exact ⟨arranged, fits, hread, hbinary es arranged⟩

end JsonForm

end ProposerBook
