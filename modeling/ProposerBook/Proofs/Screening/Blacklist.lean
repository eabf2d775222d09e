/-
What a blacklist blocks.

`Written` says which texts write a list of entries: a JSON array in which each entry is an object
with its three texts under their names, in any order and with whatever else between them, or a row
of the three.  These texts are read and no others.  So a text is refused as a whole or read as a
whole, and what is wrong with one entry as an entry is no reason to refuse it: an entry of another
kind, or with a wallet that is no address, is read like the others and blocks nothing.

What is blocked is the set of the addresses that the entries block one by one.  Hence an entry
blocks its address wherever it stands and whatever stands around it, and addresses are counted
once however often and in whatever spelling they come.
-/
import ProposerBook.Proofs.Address
import ProposerBook.Proofs.AddressSet
import ProposerBook.Proofs.Json.Record
import ProposerBook.Proofs.Json.Sound
import ProposerBook.Screening.Blacklist

namespace ProposerBook

namespace Blacklist

open Json (Completes Tree under)

/-! ### Texts that write entries -/

/-- A tree that is an entry: an object with the three texts under their names, or a row of them. -/
inductive SaysEntry : Tree → Entry → Prop
  | object {es : List (String × Tree)} {e : Entry}
      (accountType : under "account_type" es = [.string (.ok e.accountType)])
      (wallet : under "wallet" es = [.string (.ok e.wallet)])
      (reason : under "reason" es = [.string (.ok e.reason)]) :
    SaysEntry (.object (Json.keyed es) none) e
  | row (e : Entry) : SaysEntry (.array [.string (.ok e.accountType), .string (.ok e.wallet),
      .string (.ok e.reason)] none) e

/-- A text that writes entries in order. -/
def Written (es : List Entry) (b : Bytes) : Prop :=
  ∃ ts, Json.Spells (.item (.array ts none)) b ∧ List.Forall₂ SaysEntry ts es

/-- The entry is of the kind that counts, in any case, and its wallet is the address. -/
def Entry.Blocks (e : Entry) (a : Address) : Prop :=
  e.accountType.toList.map Char.toLower = "evm".toList ∧ Address.Spells e.wallet a

/-! ### Reading an entry -/

section Reading

variable {k : String} {t : Tree} {es : List (String × Tree)} {e : Entry}

/-- The entries that are still to come make `last` of what has been read. -/
structure PartialTo (last p : Partial) (es : List (String × Tree)) : Prop where
  accountType : Completes (ε := Empty) Json.string p.accountType (under "account_type" es)
    last.accountType
  wallet : Completes (ε := Empty) Json.string p.wallet (under "wallet" es) last.wallet
  reason : Completes (ε := Empty) Json.string p.reason (under "reason" es) last.reason
  whole : ∀ e ∈ es, e.2.skip = none

theorem PartialTo.step {last p : Partial} (h : PartialTo last p ((k, t) :: es)) :
    ∃ p', p.step k t = .ok p' ∧ PartialTo last p' es := by
  obtain ⟨hkind, hwallet, hreason, hwhole⟩ := h
  have hmore := fun e he => hwhole e (List.mem_cons_of_mem _ he)
  unfold Partial.step
  split
  · obtain ⟨x, hx, hkind⟩ := hkind.once
    exact ⟨{ p with accountType := x }, bind_eq_ok_iff.mpr ⟨x, hx, rfl⟩, hkind,
      hwallet.past (by decide), hreason.past (by decide), hmore⟩
  · obtain ⟨x, hx, hwallet⟩ := hwallet.once
    exact ⟨{ p with wallet := x }, bind_eq_ok_iff.mpr ⟨x, hx, rfl⟩, hkind.past (by decide),
      hwallet, hreason.past (by decide), hmore⟩
  · obtain ⟨x, hx, hreason⟩ := hreason.once
    exact ⟨{ p with reason := x }, bind_eq_ok_iff.mpr ⟨x, hx, rfl⟩, hkind.past (by decide),
      hwallet.past (by decide), hreason, hmore⟩
  · rename_i hnokind hnowallet hnoreason
    have hskip := hwhole (k, t) List.mem_cons_self
    exact ⟨p, bind_eq_ok_iff.mpr ⟨(), Json.ignored_of_skip hskip, rfl⟩, hkind.past hnokind,
      hwallet.past hnowallet, hreason.past hnoreason, hmore⟩

theorem PartialTo.settled (p : Partial) : PartialTo p p [] :=
  ⟨.settled, .settled, .settled, nofun⟩

theorem PartialTo.eq_of_nil {last p : Partial} (h : PartialTo last p []) : p = last := by
  have hkind := h.accountType.eq_of_nil
  have hwallet := h.wallet.eq_of_nil
  have hreason := h.reason.eq_of_nil
  cases p
  cases last
  simp_all

theorem PartialTo.of_step {last p p' : Partial} (step : p.step k t = .ok p')
    (h : PartialTo last p' es) : PartialTo last p ((k, t) :: es) := by
  obtain ⟨hkind, hwallet, hreason, hwhole⟩ := h
  unfold Partial.step at step
  split at step
  · obtain ⟨x, hx, hend⟩ := bind_eq_ok_iff.mp step
    cases hend
    exact ⟨.of_once hx hkind, hwallet.behind (by decide), hreason.behind (by decide),
      List.forall_mem_cons.mpr ⟨Json.skip_of_once Json.skip_of_string hx, hwhole⟩⟩
  · obtain ⟨x, hx, hend⟩ := bind_eq_ok_iff.mp step
    cases hend
    exact ⟨hkind.behind (by decide), .of_once hx hwallet, hreason.behind (by decide),
      List.forall_mem_cons.mpr ⟨Json.skip_of_once Json.skip_of_string hx, hwhole⟩⟩
  · obtain ⟨x, hx, hend⟩ := bind_eq_ok_iff.mp step
    cases hend
    exact ⟨hkind.behind (by decide), hwallet.behind (by decide), .of_once hx hreason,
      List.forall_mem_cons.mpr ⟨Json.skip_of_once Json.skip_of_string hx, hwhole⟩⟩
  · rename_i hnokind hnowallet hnoreason
    obtain ⟨u, hskip, hend⟩ := bind_eq_ok_iff.mp step
    cases hend
    exact ⟨hkind.behind hnokind, hwallet.behind hnowallet, hreason.behind hnoreason,
      List.forall_mem_cons.mpr ⟨Json.ignored_eq_ok_iff.mp hskip, hwhole⟩⟩

/-- The three texts stand under their names just if they are what is read in the end. -/
theorem partialTo_empty_iff :
    PartialTo ⟨some e.accountType, some e.wallet, some e.reason⟩ {} es ↔
      under "account_type" es = [.string (.ok e.accountType)] ∧
      under "wallet" es = [.string (.ok e.wallet)] ∧
      under "reason" es = [.string (.ok e.reason)] ∧ ∀ e ∈ es, e.2.skip = none := by
  have htext : ∀ {ts : List Tree} {s : String},
      Completes (ε := Empty) Json.string none ts (some s) ↔ ts = [.string (.ok s)] := by
    intro ts s
    rw [Json.completes_none_some_iff]
    simp [Json.string_eq_ok_iff]
  constructor
  · rintro ⟨hkind, hwallet, hreason, hwhole⟩
    exact ⟨htext.mp hkind, htext.mp hwallet, htext.mp hreason, hwhole⟩
  · rintro ⟨hkind, hwallet, hreason, hwhole⟩
    exact ⟨htext.mpr hkind, htext.mpr hwallet, htext.mpr hreason, hwhole⟩

/-- An object is an entry if the three fields have been read at its end. -/
theorem entry_object_eq_ok_iff {es : List (Json.StringLiteral × Tree)} {stop : Option Json.Break} :
    entry (.object es stop) = .ok e ↔ stop = none ∧
      Json.fields Partial.step {} es = .ok ⟨some e.accountType, some e.wallet, some e.reason⟩ := by
  constructor
  · intro h
    obtain ⟨p, hfields, hclosing⟩ := bind_eq_ok_iff.mp h
    obtain ⟨u, hstop, hkind⟩ := bind_eq_ok_iff.mp hclosing
    obtain ⟨accountType, haccountType, hrest⟩ := bind_eq_ok_iff.mp hkind
    obtain ⟨wallet, hwallet, hlast⟩ := bind_eq_ok_iff.mp hrest
    obtain ⟨reason, hreason, hend⟩ := bind_eq_ok_iff.mp hlast
    rw [Json.required_eq_ok_iff] at haccountType hwallet hreason
    cases hend
    refine ⟨Json.closing_eq_ok_iff.mp hstop, ?_⟩
    rw [hfields, ← haccountType, ← hwallet, ← hreason]
  · rintro ⟨rfl, hfields⟩
    exact bind_eq_ok_iff.mpr ⟨_, hfields, rfl⟩

/-- A row is an entry if it has the three texts and nothing else. -/
theorem entry_row_eq_ok_iff {ts : List Tree} {stop : Option Json.Break} :
    entry (.array ts stop) = .ok e ↔ stop = none ∧ ts = [.string (.ok e.accountType),
      .string (.ok e.wallet), .string (.ok e.reason)] := by
  constructor
  · intro h
    obtain ⟨⟨accountType, row₁⟩, hkind, hrest⟩ := bind_eq_ok_iff.mp h
    obtain ⟨⟨wallet, row₂⟩, hwallet, hlast⟩ := bind_eq_ok_iff.mp hrest
    obtain ⟨⟨reason, row₃⟩, hreason, hfinish⟩ := bind_eq_ok_iff.mp hlast
    obtain ⟨u, hdone, hend⟩ := bind_eq_ok_iff.mp hfinish
    cases hend
    obtain ⟨t₁, hitems₁, hstop₁, ht₁⟩ := Json.Row.next_eq_ok_iff.mp hkind
    obtain ⟨t₂, hitems₂, hstop₂, ht₂⟩ := Json.Row.next_eq_ok_iff.mp hwallet
    obtain ⟨t₃, hitems₃, hstop₃, ht₃⟩ := Json.Row.next_eq_ok_iff.mp hreason
    obtain ⟨hitems, hstop⟩ := Json.Row.finish_eq_ok_iff.mp hdone
    rw [Json.string_eq_ok_iff] at ht₁ ht₂ ht₃
    dsimp only at hitems₁ hstop₁ hitems₂ hstop₂ hitems₃ hstop₃ hitems hstop
    refine ⟨?_, ?_⟩
    · rw [hstop₁, hstop₂, hstop₃, hstop]
    · rw [hitems₁, hitems₂, hitems₃, hitems, ht₁, ht₂, ht₃]
  · rintro ⟨rfl, rfl⟩
    rfl

/-- **Which trees are entries.** -/
theorem entry_eq_ok_iff : entry t = .ok e ↔ t.skip = none ∧ SaysEntry t e := by
  constructor
  · intro h
    cases t with
    | object es stop =>
      obtain ⟨rfl, hfields⟩ := entry_object_eq_ok_iff.mp h
      have hentries : ∃ fs, es = Json.keyed fs ∧
          PartialTo ⟨some e.accountType, some e.wallet, some e.reason⟩ {} fs :=
        Json.invariant_of_fields (fun _ _ _ _ _ => PartialTo.of_step) (.settled _) hfields
      obtain ⟨fs, rfl, hfs⟩ := hentries
      obtain ⟨hkind, hwallet, hreason, hwhole⟩ := partialTo_empty_iff.mp hfs
      refine ⟨Option.or_eq_none_iff.mpr ⟨?_, rfl⟩, .object hkind hwallet hreason⟩
      refine Json.skipEntries_eq_none_iff.mpr ?_
      intro e he
      obtain ⟨f, hf, rfl⟩ := List.mem_map.mp he
      exact hwhole f hf
    | array ts stop =>
      obtain ⟨rfl, rfl⟩ := entry_row_eq_ok_iff.mp h
      exact ⟨rfl, .row e⟩
    | _ => exact absurd h Json.refuse_ne_ok
  · rintro ⟨hskip, hsays⟩
    cases hsays with
    | object hkind hwallet hreason =>
      have hwhole := Json.skip_of_keyed (Option.or_eq_none_iff.mp hskip).1
      have start := partialTo_empty_iff.mpr ⟨hkind, hwallet, hreason, hwhole⟩
      refine entry_object_eq_ok_iff.mpr ⟨rfl, ?_⟩
      exact Json.fields_of_invariant (fun _ _ _ _ => PartialTo.step)
        (fun _ => PartialTo.eq_of_nil) start
    | row => rfl

/-! ### Reading a text -/

theorem list_entry_eq_ok_iff {es : List Entry} : Json.list entry t = .ok es ↔
    t.skip = none ∧ ∃ ts, t = .array ts none ∧ List.Forall₂ SaysEntry ts es := by
  have hskip : ∀ {ts}, (Tree.array ts none).skip = none ↔ ∀ t ∈ ts, t.skip = none := by
    intro ts
    rw [← Json.skipItems_eq_none_iff]
    show (Json.skipItems ts).or none = none ↔ _
    rw [Option.or_none]
  rw [Json.list_eq_ok_iff]
  simp only [entry_eq_ok_iff, List.forall₂_and_left]
  constructor
  · rintro ⟨ts, rfl, hwhole, hall⟩
    exact ⟨hskip.mpr hwhole, ts, rfl, hall⟩
  · rintro ⟨hwhole, ts, rfl, hall⟩
    exact ⟨ts, rfl, hskip.mp hwhole, hall⟩

/-- **A text is read just if it writes entries**, and then these make the list. -/
theorem parse_eq_ok_iff {s : String} {l : Blacklist} :
    parse s = .ok l ↔ ∃ es, Written es (Bytes.ofString s) ∧ ofEntries es = l := by
  unfold parse
  rw [map_eq_ok_iff]
  simp only [Json.read_eq_ok_iff fun h => (list_entry_eq_ok_iff.mp h).1, list_entry_eq_ok_iff]
  constructor
  · rintro ⟨es, ⟨t, spelled, -, ts, rfl, hall⟩, rfl⟩
    exact ⟨es, ⟨ts, spelled, hall⟩, rfl⟩
  · rintro ⟨es, ⟨ts, spelled, hall⟩, rfl⟩
    exact ⟨es, ⟨_, spelled, Json.skip_of_spells spelled, ts, rfl, hall⟩, rfl⟩

end Reading

/-! ### What is blocked -/

theorem address?_eq_some_iff {e : Entry} {a : Address} :
    e.address? = some a ↔ Address.Spells e.wallet a := by
  rw [← Address.parse_trim_eq_ok_iff]
  unfold Entry.address?
  cases Address.parse (Text.trim e.wallet) with
  | ok c => simp [Except.toOption]
  | error cause => simp [Except.toOption]

theorem equalIgnoringAsciiCase_iff {s : String} :
    Text.equalIgnoringAsciiCase s "evm" = true ↔
      s.toList.map Char.toLower = "evm".toList := by
  have hsmall : "evm".toList.map Char.toLower = "evm".toList := by decide
  unfold Text.equalIgnoringAsciiCase
  rw [beq_iff_eq, hsmall]

theorem blocked?_eq_some_iff {e : Entry} {a : Address} :
    e.blocked? = some a ↔ e.Blocks a := by
  unfold Entry.blocked? Entry.Blocks
  rw [← equalIgnoringAsciiCase_iff, ← address?_eq_some_iff]
  by_cases hkind : Text.equalIgnoringAsciiCase e.accountType "evm" = true
  · simp [hkind]
  · simp [hkind]

/-- A blacklist blocks what its entries block. -/
theorem mem_blocked_ofEntries_iff {es : List Entry} {a : Address} :
    a ∈ (ofEntries es).blocked ↔ ∃ e ∈ es, e.Blocks a := by
  show a ∈ AddressSet.ofList (es.filterMap Entry.blocked?) ↔ _
  rw [AddressSet.mem_ofList, List.mem_filterMap]
  simp only [blocked?_eq_some_iff]

theorem contains_ofEntries_iff {es : List Entry} {a : Address} :
    (ofEntries es).contains a = true ↔ ∃ e ∈ es, e.Blocks a := by
  rw [← mem_blocked_ofEntries_iff]
  exact AddressSet.contains_iff

/-! ### Writing -/

/-- An entry as an object. -/
def Entry.toValue (e : Entry) : Json.Value := .object [("account_type", .string e.accountType),
  ("wallet", .string e.wallet), ("reason", .string e.reason)]

/-- The text that is written of entries. -/
def textOf (es : List Entry) : String :=
  String.ofList ((Json.Value.array (es.map Entry.toValue)).write.map Char.ofUInt8)

theorem saysEntry_toValue (e : Entry) : SaysEntry (.ofValue e.toValue) e := by
  show SaysEntry (.object (Json.keyed [(_, _), (_, _), (_, _)]) none) e
  exact .object rfl rfl rfl

theorem sound_toValues (es : List Entry) : (Json.Value.array (es.map Entry.toValue)).Sound := by
  show Json.ItemsSound _
  induction es with
  | nil => trivial
  | cons e es ih => exact ⟨⟨trivial, trivial, trivial, trivial⟩, ih⟩

theorem saysEntries (es : List Entry) :
    List.Forall₂ SaysEntry (Json.treesOf (es.map Entry.toValue)) es := by
  induction es with
  | nil => exact .nil
  | cons e es ih => exact .cons (saysEntry_toValue e) ih

/-- Entries in ASCII are written by their text. -/
theorem written_textOf {es : List Entry}
    (ascii : ∀ x ∈ (Json.Value.array (es.map Entry.toValue)).write, x.toNat < 128) :
    Written es (Bytes.ofString (textOf es)) := by
  have hspells := (Json.spells_write _ (sound_toValues es)).compact
  unfold textOf
  rw [Bytes.ofString_map_ofUInt8 ascii]
  exact ⟨_, hspells, saysEntries es⟩

/-- A wallet in plain digits. -/
def plainWallet : String := String.ofList ([] ++ (['0', 'x'] ++ List.replicate 40 '2') ++ [])

theorem spells_plainWallet : Address.Spells plainWallet (.repeated 0x22) := by
  refine ⟨[], ['0', 'x'], List.replicate 40 '2', [], String.toList_ofList, nofun, by decide, ?_,
    nofun⟩
  unfold Hex.SpelledBy
  decide

/-! ### The main result -/

/-- **What a blacklist blocks.**  A text is read just if it writes a list of entries.  An address
is then blocked just if some entry is of the kind that counts and has it as its wallet, in whatever
spelling; the addresses are counted once each; and what the entries of one text block is blocked by
every text that has these entries among its own, in whatever order and number. -/
theorem blocks_what_entries_say :
    (∀ s, (∃ l, parse s = .ok l) ↔ ∃ es, Written es (Bytes.ofString s)) ∧
    (∀ (e : Entry) a, e.Blocks a ↔ Text.equalIgnoringAsciiCase e.accountType "evm" = true ∧
      Address.parse (Text.trim e.wallet) = .ok a) ∧
    (∀ s es, Written es (Bytes.ofString s) → ∃ l, parse s = .ok l ∧ l.entries = es ∧
      (∀ a, l.contains a = true ↔ ∃ e ∈ es, e.Blocks a) ∧
      ∃ as : List Address, as.Nodup ∧ (∀ a, a ∈ as ↔ ∃ e ∈ es, e.Blocks a) ∧
        l.size = as.length) ∧
    ∀ s t l m, parse s = .ok l → parse t = .ok m →
      (∀ e ∈ l.entries, ∀ a, e.Blocks a → e ∈ m.entries) →
      ∀ a, l.contains a = true → m.contains a = true := by
  refine ⟨?_, ?_, ?_, ?_⟩
  · intro s
    constructor
    · rintro ⟨l, hl⟩
      obtain ⟨es, written, -⟩ := parse_eq_ok_iff.mp hl
      exact ⟨es, written⟩
    · rintro ⟨es, written⟩
      exact ⟨ofEntries es, parse_eq_ok_iff.mpr ⟨es, written, rfl⟩⟩
  · intro e a
    rw [equalIgnoringAsciiCase_iff, Address.parse_trim_eq_ok_iff]
    rfl
  · intro s es written
    refine ⟨ofEntries es, parse_eq_ok_iff.mpr ⟨es, written, rfl⟩, rfl,
      fun a => contains_ofEntries_iff, (ofEntries es).blocked.members, ?_,
      fun a => mem_blocked_ofEntries_iff, rfl⟩
    exact Sorted.nodup_of_ascending (ofEntries es).blocked.ascending
  · intro s t l m hl hm among a ha
    obtain ⟨es, -, rfl⟩ := parse_eq_ok_iff.mp hl
    obtain ⟨fs, -, rfl⟩ := parse_eq_ok_iff.mp hm
    obtain ⟨e, he, hblocks⟩ := contains_ofEntries_iff.mp ha
    exact contains_ofEntries_iff.mpr ⟨e, among e he a hblocks, hblocks⟩

/-- One address in two spellings, as an object and as a row; an account of another kind whose
wallet is an address, and a wallet that is none. -/
theorem blocks_what_entries_say_mixed :
    let a : Address := .repeated 0xab
    let c : Address := .repeated 0x07
    let mixed := (List.replicate 20 ['A', 'b']).flatten
    let plain := (List.replicate 20 ['0', '7']).flatten
    let first := String.ofList ([' '] ++ (['0', 'X'] ++ mixed) ++ ['\n'])
    let again := String.ofList ([] ++ ([] ++ mixed) ++ [])
    let foreign := String.ofList ([] ++ ([] ++ plain) ++ [])
    let row : Json.Value := .array [.string "evm", .string again, .string "again"]
    let text : Json.Value := .array [
      .object [("wallet", .string first), ("account_type", .string "EvM"),
        ("note", .array [.null]), ("reason", .string "ours")],
      .object [("account_type", .string "solana"), ("wallet", .string foreign),
        ("reason", .string "theirs")],
      .object [("reason", .string "short"), ("account_type", .string "evm"),
        ("wallet", .string "0xABCDEF")],
      row]
    let es : List Entry := [⟨"EvM", first, "ours"⟩, ⟨"solana", foreign, "theirs"⟩,
      ⟨"evm", "0xABCDEF", "short"⟩, ⟨"evm", again, "again"⟩]
    let s := String.ofList (text.write.map Char.ofUInt8)
    let fewer := String.ofList ((Json.Value.array [row]).write.map Char.ofUInt8)
    ∃ l, parse s = .ok l ∧ l.entries = es ∧ l.contains a = true ∧ l.contains c = false ∧
      l.size = 1 ∧ ∃ m, parse fewer = .ok m ∧ ∀ x, m.contains x = true → l.contains x = true := by
  intro a c mixed plain first again foreign row text es s fewer
  have hmixed : Hex.SpelledBy a.bytes mixed := by unfold Hex.SpelledBy; decide
  have hfirst : Address.Spells first a :=
    ⟨[' '], ['0', 'X'], mixed, ['\n'], String.toList_ofList, List.forall_mem_singleton.mpr rfl,
      by decide, hmixed, List.forall_mem_singleton.mpr rfl⟩
  have hagain : Address.Spells again a :=
    ⟨[], [], mixed, [], String.toList_ofList, nofun, by decide, hmixed, nofun⟩
  have hs : Bytes.ofString s = text.write := Bytes.ofString_map_ofUInt8 (by decide +kernel)
  have hfewer : Bytes.ofString fewer = (Json.Value.array [row]).write :=
    Bytes.ofString_map_ofUInt8 (by decide +kernel)
  have written : Written es (Bytes.ofString s) := by
    have sound : text.Sound := ⟨⟨trivial, trivial, ⟨trivial, trivial⟩, trivial, trivial⟩,
      ⟨trivial, trivial, trivial, trivial⟩, ⟨trivial, trivial, trivial, trivial⟩,
      ⟨trivial, trivial, trivial, trivial⟩, trivial⟩
    rw [hs]
    refine ⟨_, (Json.spells_write text sound).compact, .cons ?_ (.cons ?_ (.cons ?_
      (.cons (.row ⟨"evm", again, "again"⟩) .nil)))⟩
    · show SaysEntry (.object (Json.keyed [(_, _), (_, _), (_, _), (_, _)]) none) _
      exact .object rfl rfl rfl
    · show SaysEntry (.object (Json.keyed [(_, _), (_, _), (_, _)]) none) _
      exact .object rfl rfl rfl
    · show SaysEntry (.object (Json.keyed [(_, _), (_, _), (_, _)]) none) _
      exact .object rfl rfl rfl
  have writtenFewer : Written [⟨"evm", again, "again"⟩] (Bytes.ofString fewer) := by
    have sound : (Json.Value.array [row]).Sound := ⟨⟨trivial, trivial, trivial, trivial⟩, trivial⟩
    rw [hfewer]
    exact ⟨_, (Json.spells_write _ sound).compact, .cons (.row ⟨"evm", again, "again"⟩) .nil⟩
  have hblocks : ∀ x, (∃ e ∈ es, e.Blocks x) ↔ x = a := by
    intro x
    constructor
    · rintro ⟨e, he, hkind, hwallet⟩
      rcases List.mem_cons.mp he with rfl | he
      · exact hwallet.unique hfirst
      rcases List.mem_cons.mp he with rfl | he
      · exact absurd hkind (by decide)
      rcases List.mem_cons.mp he with rfl | he
      · exact absurd hwallet (Address.not_spells_of_short (by decide))
      · rw [List.mem_singleton.mp he] at hwallet
        exact hwallet.unique hagain
    · rintro rfl
      exact ⟨_, List.mem_cons_self, by decide, hfirst⟩
  obtain ⟨l, hl, hentries, hcontains, as, hnodup, hmem, hsize⟩ :=
    blocks_what_entries_say.2.2.1 s es written
  obtain ⟨m, hm, hfewerEntries, -, -⟩ := blocks_what_entries_say.2.2.1 fewer _ writtenFewer
  refine ⟨l, hl, hentries, (hcontains a).mpr ((hblocks a).mpr rfl), ?_, ?_, m, hm, ?_⟩
  · rw [Bool.eq_false_iff]
    intro hc
    exact absurd ((hblocks c).mp ((hcontains c).mp hc)) (by decide)
  · have hperm : as.Perm [a] := by
      refine (List.perm_ext_iff_of_nodup hnodup (List.nodup_singleton a)).mpr ?_
      intro x
      rw [hmem, hblocks, List.mem_singleton]
    rw [hsize, hperm.length_eq, List.length_singleton]
  · refine blocks_what_entries_say.2.2.2 fewer s m l hm hl ?_
    intro e he _ _
    rw [hfewerEntries, List.mem_singleton] at he
    rw [hentries, he]
    simp [es]

end Blacklist

end ProposerBook
