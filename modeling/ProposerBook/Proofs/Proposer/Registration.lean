/-
Registrations go through JSON unchanged.

`Written` says which texts write registrations.  Each registration is an object with one entry for
each field, in any order, and with entries of other names between them.  A number may stand in
quotes, and then with blanks around it and with a plus sign and zeros before it.  A time stamp of
zero may be left out, and so may the name of a list where there is none.  Every such text is read:
an entry with the name of a field sets this field, and all others leave it alone.

What is written of registrations is a text of this kind, with bare numbers and all fields.  So
whatever a text was like, the registrations that were read from it are read again when they are
written, and they make the same slot map.
-/
import Mathlib.Data.List.Forall2
import ProposerBook.Proofs.Json.Record
import ProposerBook.Proofs.Json.Write
import ProposerBook.Proofs.Outcome
import ProposerBook.Proofs.Text.Decimal
import ProposerBook.Proposer.SlotMap

namespace ProposerBook

namespace Registration

open Json (Completes Tree Value under)

/-! ### Texts that write registrations -/

/-- A number, bare or in quotes. -/
inductive WordIn : Tree → UInt64 → Prop
  | bare (w : UInt64) : WordIn (.number { negative := false, whole := Json.natDigits w.toNat }) w
  | quoted {s : String} {w : UInt64} (text : Decimal.Spells s w) : WordIn (.string (.ok s)) w

/-- What stands under the name of a time stamp, which may be nothing. -/
inductive TimeIn : List Tree → UInt64 → Prop
  | absent : TimeIn [] 0
  | given {t : Tree} {w : UInt64} (word : WordIn t w) : TimeIn [t] w

/-- What stands under the name of a list, which may be nothing. -/
inductive NameIn : List Tree → Option String → Prop
  | absent : NameIn [] none
  | null : NameIn [.null] none
  | given (name : String) : NameIn [.string (.ok name)] (some name)

/-- The entries of an object that is a message. -/
structure SayMessage (es : List (String × Tree)) (m : RegistrationMessage) : Prop where
  feeRecipient : under "fee_recipient" es = [.string (.ok m.feeRecipient)]
  gasLimit : ∃ t, under "gas_limit" es = [t] ∧ WordIn t m.gasLimit
  timestamp : TimeIn (under "timestamp" es) m.timestamp
  pubkey : under "pubkey" es = [.string (.ok m.pubkey)]

/-- The entries of an object that is a message with its signature. -/
structure SaySigned (es : List (String × Tree)) (e : SignedRegistration) : Prop where
  message : ∃ fs, under "message" es = [.object (Json.keyed fs) none] ∧ SayMessage fs e.message
  signature : under "signature" es = [.string (.ok e.signature)]

/-- The entries of an object that is a registration. -/
structure Say (es : List (String × Tree)) (r : Registration) : Prop where
  slot : ∃ t, under "slot" es = [t] ∧ WordIn t r.slot
  entry : ∃ fs, under "entry" es = [.object (Json.keyed fs) none] ∧ SaySigned fs r.entry
  complianceList : NameIn (under "compliance_list" es) r.complianceList

/-- A text that writes registrations in order. -/
def Written (rs : List Registration) (b : Bytes) : Prop :=
  ∃ os : List (List (String × Tree)),
    Json.Spells (.item (.array (os.map fun es => .object (Json.keyed es) none) none)) b ∧
    List.Forall₂ Say os rs

/-! ### Reading them -/

variable {k : String} {t : Tree} {w : UInt64} {es : List (String × Tree)}

theorem word_of_wordIn (depth : Nat) (h : WordIn t w) : word depth t = .ok w := by
  cases h with
  | bare =>
    have hnumber := Json.number_natDigits w.toNat_lt
    have hkeep : (Tree.number { negative := false, whole := Json.natDigits w.toNat }).keep
        (Json.maxDepth - depth) = none := by
      unfold Tree.keep
      rw [hnumber]
    unfold word
    simp only [hkeep, hnumber]
    show Except.ok (UInt64.ofNat w.toNat) = .ok w
    rw [UInt64.ofNat_toNat]
  | quoted text =>
    refine bind_eq_ok_iff.mpr ⟨_, rfl, ?_⟩
    rw [text.parseWord_trim]
    rfl

theorem TimeIn.completes {ts : List Tree} (h : TimeIn ts w) :
    ∃ x, Completes (word 4) none ts x ∧ x.getD 0 = w := by
  cases h with
  | absent => exact ⟨none, .settled, rfl⟩
  | given hword => exact ⟨some w, .read (word_of_wordIn 4 hword), rfl⟩

theorem NameIn.completes {ts : List Tree} {name : Option String} (h : NameIn ts name) :
    ∃ x, Completes (ε := Fault) (Json.optional Json.string) none ts x ∧ x.getD none = name := by
  cases h with
  | absent => exact ⟨none, .settled, rfl⟩
  | null => exact ⟨some none, .read rfl, rfl⟩
  | given name => exact ⟨some (some name), .read rfl, rfl⟩

/-- The entries that are still to come make `last` of the message as far as it has been read. -/
structure MessageTo (last p : PartialMessage) (es : List (String × Tree)) : Prop where
  feeRecipient : Completes (ε := Fault) Json.string p.feeRecipient (under "fee_recipient" es)
    last.feeRecipient
  gasLimit : Completes (word 4) p.gasLimit (under "gas_limit" es) last.gasLimit
  timestamp : Completes (word 4) p.timestamp (under "timestamp" es) last.timestamp
  pubkey : Completes (ε := Fault) Json.string p.pubkey (under "pubkey" es) last.pubkey
  whole : ∀ e ∈ es, e.2.skip = none

theorem MessageTo.step {last p : PartialMessage} (h : MessageTo last p ((k, t) :: es)) :
    ∃ p', p.step k t = .ok p' ∧ MessageTo last p' es := by
  obtain ⟨hfee, hgas, htime, hkey, hwhole⟩ := h
  have hmore := fun e he => hwhole e (List.mem_cons_of_mem _ he)
  -- By its name the entry belongs to one field or to none; the other fields have other names.
  unfold PartialMessage.step
  split
  · obtain ⟨x, hx, hfee⟩ := hfee.once
    exact ⟨{ p with feeRecipient := x }, bind_eq_ok_iff.mpr ⟨x, hx, rfl⟩, hfee,
      hgas.past (by decide), htime.past (by decide), hkey.past (by decide), hmore⟩
  · obtain ⟨x, hx, hgas⟩ := hgas.once
    exact ⟨{ p with gasLimit := x }, bind_eq_ok_iff.mpr ⟨x, hx, rfl⟩, hfee.past (by decide),
      hgas, htime.past (by decide), hkey.past (by decide), hmore⟩
  · obtain ⟨x, hx, htime⟩ := htime.once
    exact ⟨{ p with timestamp := x }, bind_eq_ok_iff.mpr ⟨x, hx, rfl⟩, hfee.past (by decide),
      hgas.past (by decide), htime, hkey.past (by decide), hmore⟩
  · obtain ⟨x, hx, hkey⟩ := hkey.once
    exact ⟨{ p with pubkey := x }, bind_eq_ok_iff.mpr ⟨x, hx, rfl⟩, hfee.past (by decide),
      hgas.past (by decide), htime.past (by decide), hkey, hmore⟩
  · rename_i hnofee hnogas hnotime hnokey
    have hskip := hwhole (k, t) List.mem_cons_self
    exact ⟨p, bind_eq_ok_iff.mpr ⟨(), Json.ignored_of_skip hskip, rfl⟩, hfee.past hnofee,
      hgas.past hnogas, htime.past hnotime, hkey.past hnokey, hmore⟩

theorem MessageTo.eq_of_nil {last p : PartialMessage} (h : MessageTo last p []) : p = last := by
  have hfee := h.feeRecipient.eq_of_nil
  have hgas := h.gasLimit.eq_of_nil
  have htime := h.timestamp.eq_of_nil
  have hkey := h.pubkey.eq_of_nil
  cases p
  cases last
  simp_all

/-- **Entries that say a message are read as this message.** -/
theorem message_of_say {m : RegistrationMessage} (h : SayMessage es m)
    (whole : ∀ e ∈ es, e.2.skip = none) : message (.object (Json.keyed es) none) = .ok m := by
  obtain ⟨hfee, ⟨t, ht, hgas⟩, htime, hkey⟩ := h
  obtain ⟨x, hx, hdefault⟩ := htime.completes
  have start : MessageTo ⟨some m.feeRecipient, some m.gasLimit, x, some m.pubkey⟩ {} es := by
    refine ⟨?_, ?_, hx, ?_, whole⟩
    · rw [hfee]
      exact .read rfl
    · rw [ht]
      exact .read (word_of_wordIn 4 hgas)
    · rw [hkey]
      exact .read rfl
  have hfields : Json.fields PartialMessage.step {} (Json.keyed es) = .ok _ :=
    Json.fields_of_invariant (fun _ _ _ _ => MessageTo.step) (fun _ => MessageTo.eq_of_nil) start
  refine bind_eq_ok_iff.mpr ⟨_, hfields, ?_⟩
  show Except.ok (⟨m.feeRecipient, m.gasLimit, x.getD 0, m.pubkey⟩ : RegistrationMessage) = .ok m
  rw [hdefault]

/-- The same for a message with its signature. -/
structure EntryTo (last p : PartialEntry) (es : List (String × Tree)) : Prop where
  message : Completes Registration.message p.message (under "message" es) last.message
  signature : Completes (ε := Fault) Json.string p.signature (under "signature" es) last.signature
  whole : ∀ e ∈ es, e.2.skip = none

theorem EntryTo.step {last p : PartialEntry} (h : EntryTo last p ((k, t) :: es)) :
    ∃ p', p.step k t = .ok p' ∧ EntryTo last p' es := by
  obtain ⟨hmessage, hsignature, hwhole⟩ := h
  have hmore := fun e he => hwhole e (List.mem_cons_of_mem _ he)
  unfold PartialEntry.step
  split
  · obtain ⟨x, hx, hmessage⟩ := hmessage.once
    exact ⟨{ p with message := x }, bind_eq_ok_iff.mpr ⟨x, hx, rfl⟩, hmessage,
      hsignature.past (by decide), hmore⟩
  · obtain ⟨x, hx, hsignature⟩ := hsignature.once
    exact ⟨{ p with signature := x }, bind_eq_ok_iff.mpr ⟨x, hx, rfl⟩, hmessage.past (by decide),
      hsignature, hmore⟩
  · rename_i hnomessage hnosignature
    have hskip := hwhole (k, t) List.mem_cons_self
    exact ⟨p, bind_eq_ok_iff.mpr ⟨(), Json.ignored_of_skip hskip, rfl⟩, hmessage.past hnomessage,
      hsignature.past hnosignature, hmore⟩

theorem EntryTo.eq_of_nil {last p : PartialEntry} (h : EntryTo last p []) : p = last := by
  have hmessage := h.message.eq_of_nil
  have hsignature := h.signature.eq_of_nil
  cases p
  cases last
  simp_all

theorem signed_of_say {e : SignedRegistration} (h : SaySigned es e)
    (whole : ∀ e ∈ es, e.2.skip = none) : signed (.object (Json.keyed es) none) = .ok e := by
  obtain ⟨⟨fs, hfs, hmessage⟩, hsignature⟩ := h
  have start : EntryTo ⟨some e.message, some e.signature⟩ {} es := by
    refine ⟨?_, ?_, whole⟩
    · rw [hfs]
      exact .read (message_of_say hmessage (Json.skip_of_under whole hfs))
    · rw [hsignature]
      exact .read rfl
  have hfields : Json.fields PartialEntry.step {} (Json.keyed es) = .ok _ :=
    Json.fields_of_invariant (fun _ _ _ _ => EntryTo.step) (fun _ => EntryTo.eq_of_nil) start
  refine bind_eq_ok_iff.mpr ⟨_, hfields, ?_⟩
  rfl

/-- The same for a registration. -/
structure RegistrationTo (last p : PartialRegistration) (es : List (String × Tree)) : Prop where
  slot : Completes (word 2) p.slot (under "slot" es) last.slot
  entry : Completes signed p.entry (under "entry" es) last.entry
  complianceList : Completes (ε := Fault) (Json.optional Json.string) p.complianceList
    (under "compliance_list" es) last.complianceList
  whole : ∀ e ∈ es, e.2.skip = none

theorem RegistrationTo.step {last p : PartialRegistration}
    (h : RegistrationTo last p ((k, t) :: es)) :
    ∃ p', p.step k t = .ok p' ∧ RegistrationTo last p' es := by
  obtain ⟨hslot, hentry, hlist, hwhole⟩ := h
  have hmore := fun e he => hwhole e (List.mem_cons_of_mem _ he)
  unfold PartialRegistration.step
  split
  · obtain ⟨x, hx, hslot⟩ := hslot.once
    exact ⟨{ p with slot := x }, bind_eq_ok_iff.mpr ⟨x, hx, rfl⟩, hslot,
      hentry.past (by decide), hlist.past (by decide), hmore⟩
  · obtain ⟨x, hx, hentry⟩ := hentry.once
    exact ⟨{ p with entry := x }, bind_eq_ok_iff.mpr ⟨x, hx, rfl⟩, hslot.past (by decide),
      hentry, hlist.past (by decide), hmore⟩
  · obtain ⟨x, hx, hlist⟩ := hlist.once
    exact ⟨{ p with complianceList := x }, bind_eq_ok_iff.mpr ⟨x, hx, rfl⟩,
      hslot.past (by decide), hentry.past (by decide), hlist, hmore⟩
  · rename_i hnoslot hnoentry hnolist
    have hskip := hwhole (k, t) List.mem_cons_self
    exact ⟨p, bind_eq_ok_iff.mpr ⟨(), Json.ignored_of_skip hskip, rfl⟩, hslot.past hnoslot,
      hentry.past hnoentry, hlist.past hnolist, hmore⟩

theorem RegistrationTo.eq_of_nil {last p : PartialRegistration} (h : RegistrationTo last p []) :
    p = last := by
  have hslot := h.slot.eq_of_nil
  have hentry := h.entry.eq_of_nil
  have hlist := h.complianceList.eq_of_nil
  cases p
  cases last
  simp_all

theorem registration_of_say {r : Registration} (h : Say es r)
    (whole : ∀ e ∈ es, e.2.skip = none) : registration (.object (Json.keyed es) none) = .ok r := by
  obtain ⟨⟨t, ht, hslot⟩, ⟨fs, hfs, hentry⟩, hlist⟩ := h
  obtain ⟨x, hx, hdefault⟩ := hlist.completes
  have start : RegistrationTo ⟨some r.slot, some r.entry, x⟩ {} es := by
    refine ⟨?_, ?_, hx, whole⟩
    · rw [ht]
      exact .read (word_of_wordIn 2 hslot)
    · rw [hfs]
      exact .read (signed_of_say hentry (Json.skip_of_under whole hfs))
  have hfields : Json.fields PartialRegistration.step {} (Json.keyed es) = .ok _ :=
    Json.fields_of_invariant (fun _ _ _ _ => RegistrationTo.step)
      (fun _ => RegistrationTo.eq_of_nil) start
  refine bind_eq_ok_iff.mpr ⟨_, hfields, ?_⟩
  show Except.ok (⟨r.slot, r.entry, x.getD none⟩ : Registration) = .ok r
  rw [hdefault]

theorem items_of_say {os : List (List (String × Tree))} {rs : List Registration}
    (h : List.Forall₂ Say os rs)
    (whole : Json.skipItems (os.map fun es => .object (Json.keyed es) none) = none) :
    Json.items registration (os.map fun es => .object (Json.keyed es) none) = .ok rs := by
  induction h with
  | nil => rfl
  | @cons es r os rs hsay _ ih =>
    obtain ⟨hfirst, hmore⟩ := Option.or_eq_none_iff.mp whole
    have hskip := Json.skip_of_keyed (Option.or_eq_none_iff.mp hfirst).1
    have hread := registration_of_say hsay hskip
    exact bind_eq_ok_iff.mpr ⟨r, hread, bind_eq_ok_iff.mpr ⟨rs, ih hmore, rfl⟩⟩

/-- **Every text that writes registrations is read as these registrations.** -/
theorem parse_of_written {rs : List Registration} {b : Bytes} (h : Written rs b) :
    parse b = .ok rs := by
  obtain ⟨os, hspells, hsay⟩ := h
  have hskip : (Tree.array (os.map fun es => .object (Json.keyed es) none) none).skip = none :=
    Json.skip_of_spells hspells
  have hitems := items_of_say hsay (Option.or_eq_none_iff.mp hskip).1
  unfold parse
  rw [Json.read_of_spells hspells]
  exact bind_eq_ok_iff.mpr ⟨rs, hitems, rfl⟩

/-! ### Writing -/

/-- The entries that are written of a message. -/
def messageEntries (m : RegistrationMessage) : List (String × Tree) :=
  [("fee_recipient", .string (.ok m.feeRecipient)),
    ("gas_limit", .ofValue (.nat m.gasLimit.toNat)),
    ("timestamp", .ofValue (.nat m.timestamp.toNat)),
    ("pubkey", .string (.ok m.pubkey))]

def signedEntries (e : SignedRegistration) : List (String × Tree) :=
  [("message", .object (Json.keyed (messageEntries e.message)) none),
    ("signature", .string (.ok e.signature))]

def nameTree : Option String → Tree
  | none => .null
  | some name => .string (.ok name)

/-- The entries that are written of a registration. -/
def entries (r : Registration) : List (String × Tree) :=
  [("slot", .ofValue (.nat r.slot.toNat)),
    ("entry", .object (Json.keyed (signedEntries r.entry)) none),
    ("compliance_list", nameTree r.complianceList)]

theorem ofValue_toValue (r : Registration) :
    Tree.ofValue r.toValue = .object (Json.keyed r.entries) none := by
  obtain ⟨slot, entry, complianceList⟩ := r
  cases complianceList with
  | none => rfl
  | some name => rfl

theorem say_entries (r : Registration) : Say r.entries r := by
  have hmessage : SayMessage (messageEntries r.entry.message) r.entry.message :=
    ⟨rfl, ⟨_, rfl, .bare _⟩, .given (.bare _), rfl⟩
  have hsigned : SaySigned (signedEntries r.entry) r.entry := ⟨⟨_, rfl, hmessage⟩, rfl⟩
  refine ⟨⟨_, rfl, .bare _⟩, ⟨_, rfl, hsigned⟩, ?_⟩
  show NameIn [nameTree r.complianceList] r.complianceList
  cases r.complianceList with
  | none => exact .null
  | some name => exact .given name

theorem sound_toValue (r : Registration) : r.toValue.Sound := by
  have hmessage : Json.EntriesSound [
      ("fee_recipient", .string r.entry.message.feeRecipient),
      ("gas_limit", .nat r.entry.message.gasLimit.toNat),
      ("timestamp", .nat r.entry.message.timestamp.toNat),
      ("pubkey", .string r.entry.message.pubkey)] :=
    ⟨trivial, Json.sound_nat _, Json.sound_nat _, trivial, trivial⟩
  refine ⟨Json.sound_nat _, ⟨hmessage, trivial, trivial⟩, ?_, trivial⟩
  cases r.complianceList with
  | none => trivial
  | some name => trivial

theorem sound_toValues (rs : List Registration) : (Value.array (rs.map toValue)).Sound := by
  show Json.ItemsSound _
  induction rs with
  | nil => trivial
  | cons r rs ih => exact ⟨sound_toValue r, ih⟩

theorem treesOf_toValues (rs : List Registration) : Json.treesOf (rs.map toValue) =
    (rs.map entries).map fun es => .object (Json.keyed es) none := by
  induction rs with
  | nil => rfl
  | cons r rs ih =>
    show Tree.ofValue r.toValue :: Json.treesOf (rs.map toValue) = _
    rw [ih, ofValue_toValue]
    rfl

/-- What is written of registrations writes them. -/
theorem written_write (rs : List Registration) : Written rs (write rs) := by
  have hspells := (Json.spells_write _ (sound_toValues rs)).compact
  have htree : Tree.ofValue (.array (rs.map toValue)) = .array (Json.treesOf _) none := rfl
  rw [htree, treesOf_toValues] at hspells
  refine ⟨rs.map entries, hspells, ?_⟩
  rw [List.forall₂_map_left_iff, List.forall₂_same]
  exact fun r _ => say_entries r

/-- **Registrations go through JSON unchanged.**  Whatever is written is read back.  What was read
from a text is read again when it is written, and makes the same slot map; and the text may have had
its numbers in quotes, no time stamp, no list, and fields that nobody knows. -/
theorem registrations_round_trip :
    (∀ rs, parse (write rs) = .ok rs) ∧
    (∀ b rs, parse b = .ok rs → parse (write rs) = parse b ∧
      (parse (write rs)).map SlotMap.ofRegistrations = .ok (SlotMap.ofRegistrations rs)) ∧
    ∀ b rs, Written rs b → parse b = .ok rs := by
  have hback : ∀ rs, parse (write rs) = .ok rs := fun rs => parse_of_written (written_write rs)
  refine ⟨hback, ?_, fun b rs => parse_of_written⟩
  intro b rs hb
  rw [hback rs, hb]
  exact ⟨rfl, rfl⟩

/-- The greatest slot in quotes, a limit with a sign, zeros and blanks, no time stamp and no list,
and fields that nobody knows. -/
theorem registrations_round_trip_quoted :
    let limit := String.ofList ([' '] ++ (['+'] ++ ['0', '0', '7']) ++ ['\n'])
    let slot := toString (18446744073709551615 : UInt64).toNat
    let text : Value := .array [.object [
      ("version", .string "2"),
      ("entry", .object [("signature", .string ""), ("message", .object [
        ("pubkey", .string "0xAA"), ("gas_limit", .string limit),
        ("builder", .array [.nat 7, .null]), ("fee_recipient", .string "\u00e9")])]),
      ("slot", .string slot), ("version", .nat 3)]]
    let b := 0x0a :: (text.write ++ [0x20])
    let rs : List Registration := [⟨18446744073709551615, ⟨⟨"\u00e9", 7, 0, "0xAA"⟩, ""⟩, none⟩]
    Written rs b ∧ parse b = .ok rs ∧ parse (write rs) = parse b ∧
      (parse (write rs)).map SlotMap.ofRegistrations = .ok (SlotMap.ofRegistrations rs) := by
  intro limit slot text b rs
  have hlimit : Decimal.Spells limit 7 :=
    ⟨[' '], ['+'], ['0', '0', '7'], ['\n'], String.toList_ofList,
      List.forall_mem_singleton.mpr rfl, by decide, by decide, List.all_eq_true.mp rfl, rfl,
      List.forall_mem_singleton.mpr rfl⟩
  have hmessage : SayMessage [("pubkey", .string (.ok "0xAA")), ("gas_limit", .string (.ok limit)),
      ("builder", .ofValue (.array [.nat 7, .null])), ("fee_recipient", .string (.ok "\u00e9"))]
      ⟨"\u00e9", 7, 0, "0xAA"⟩ :=
    ⟨rfl, ⟨_, rfl, .quoted hlimit⟩, .absent, rfl⟩
  have hsigned : SaySigned [("signature", .string (.ok "")), ("message", .object _ none)]
      ⟨⟨"\u00e9", 7, 0, "0xAA"⟩, ""⟩ := ⟨⟨_, rfl, hmessage⟩, rfl⟩
  have hsay : Say [("version", .string (.ok "2")), ("entry", .object _ none),
      ("slot", .string (.ok slot)), ("version", .ofValue (.nat 3))]
      ⟨18446744073709551615, ⟨⟨"\u00e9", 7, 0, "0xAA"⟩, ""⟩, none⟩ :=
    ⟨⟨_, rfl, .quoted (Decimal.spells_toString _)⟩, ⟨_, rfl, hsigned⟩, .absent⟩
  have sound : text.Sound :=
    ⟨⟨trivial, ⟨trivial, ⟨trivial, trivial, ⟨Json.sound_nat 7, trivial, trivial⟩, trivial, trivial⟩,
      trivial⟩, trivial, Json.sound_nat 3, trivial⟩, trivial⟩
  have hspells : Json.Spells (.item (.ofValue text)) ([0x0a] ++ (text.write ++ [0x20])) :=
    .item (List.forall_mem_singleton.mpr rfl) (Json.spells_write text sound)
      (List.forall_mem_singleton.mpr rfl)
  have written : Written rs b := ⟨[[(_, _), (_, _), (_, _), (_, _)]], hspells, .cons hsay .nil⟩
  have hread := registrations_round_trip.2.2 b rs written
  have hagain := registrations_round_trip.2.1 b rs hread
  exact ⟨written, hread, hagain.1, hagain.2⟩

end Registration

end ProposerBook
