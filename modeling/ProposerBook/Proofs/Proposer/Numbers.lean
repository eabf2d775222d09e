/-
Numbers of registrations, in quotes or without.

A slot, a gas limit and a time stamp are read from a bare integer or from a text, and from nothing
else: `IsWord` says which.  The two parsers, that of JSON and that of decimal texts, agree on what
digits stand for, up to the greatest word and not beyond.  So an integer may get quotes, or lose
them, and the response is read as before; and where a number is none, the whole response is
refused, wherever in it that number stands.
-/
import ProposerBook.Proofs.Proposer.Accepted

namespace ProposerBook

namespace Registration

open Json (Tree Value under)

/-! ### Digits in quotes -/

theorem toNat_digitChar {d : Nat} (h : d < 10) :
    d.digitChar.isDigit = true ∧ d.digitChar.toNat - '0'.toNat = d := by
  have hall : ∀ d : Fin 10, d.val.digitChar.isDigit = true ∧
      d.val.digitChar.toNat - '0'.toNat = d.val := by decide
  exact hall ⟨d, h⟩

/-- Digits stand for one number, with quotes around them or without. -/
theorem ofDigitChars_digits {ds : List Nat} (below : ∀ d ∈ ds, d < 10) :
    Nat.ofDigitChars 10 (ds.map Nat.digitChar) 0 = Json.Number.ofDigits ds := by
  unfold Json.Number.ofDigits
  generalize 0 = n
  induction ds generalizing n with
  | nil => rfl
  | cons d ds ih =>
    obtain ⟨hd, hmore⟩ := List.forall_mem_cons.mp below
    rw [List.map_cons, Nat.ofDigitChars_cons, (toNat_digitChar hd).2, ih hmore, Nat.mul_comm 10 n]
    rfl

/-- One value, where a bare integer in one place may stand in quotes in the other. -/
inductive Respelled : Tree → Tree → Prop
  | same (t : Tree) : Respelled t t
  | quoted {ds : List Nat} (digits : Json.Digits ds) :
    Respelled (.number { negative := false, whole := ds })
      (.string (.ok (String.ofList (ds.map Nat.digitChar))))
  | bare {ds : List Nat} (digits : Json.Digits ds) :
    Respelled (.string (.ok (String.ofList (ds.map Nat.digitChar))))
      (.number { negative := false, whole := ds })

variable {t u v : Tree} {w : UInt64}

theorem isWord_quoted_iff {ds : List Nat} (digits : Json.Digits ds) :
    IsWord (.string (.ok (String.ofList (ds.map Nat.digitChar)))) w ↔
      IsWord (.number { negative := false, whole := ds }) w := by
  have hsome : ds.map Nat.digitChar ≠ [] := fun h => digits.nonempty (List.map_eq_nil_iff.mp h)
  have hdigits : ∀ c ∈ ds.map Nat.digitChar, c.isDigit = true := by
    intro c hc
    obtain ⟨d, hd, rfl⟩ := List.mem_map.mp hc
    exact (toNat_digitChar (digits.below d hd)).1
  have hspells := Decimal.spells_digits_iff (w := w) hsome hdigits
  rw [ofDigitChars_digits digits.below] at hspells
  constructor
  · intro h
    cases h with
    | quoted text => exact .bare (hspells.mp text)
  · intro h
    cases h with
    | bare value => exact .quoted (hspells.mpr value)

/-- **Quotes around an integer change nothing**, whether it fits a word or not. -/
theorem isWord_of_respelled (h : Respelled t u) (hw : IsWord t w) : IsWord u w := by
  cases h with
  | same => exact hw
  | quoted digits => exact (isWord_quoted_iff digits).mpr hw
  | bare digits => exact (isWord_quoted_iff digits).mp hw

theorem Respelled.symm (h : Respelled t u) : Respelled u t := by
  cases h with
  | same => exact .same _
  | quoted digits => exact .bare digits
  | bare digits => exact .quoted digits

/-! ### Records that differ in quotes only -/

/-- Two records of which the fields are related one by one.  In a row they have their names from
their places. -/
inductive Alike (names : List String) (related : String → Tree → Tree → Prop) : Tree → Tree → Prop
  | same (t : Tree) : Alike names related t t
  | object {es fs : List (Json.StringLiteral × Tree)} {stop : Option Json.Break}
      (entries : List.Forall₂
        (fun e f => e.1 = f.1 ∧ ∀ name, e.1 = .ok name → related name e.2 f.2) es fs) :
    Alike names related (.object es stop) (.object fs stop)
  | row {ts us : List Tree} {stop : Option Json.Break} (length : us.length = ts.length)
      (items : ∀ i t u, ts[i]? = some t → us[i]? = some u → related (names.getD i "") t u) :
    Alike names related (.array ts stop) (.array us stop)

/-- How a field of a message may differ. -/
def requotedMessage (name : String) : Tree → Tree → Prop :=
  if name ∈ ["gas_limit", "timestamp"] then Respelled else Eq

/-- Two messages that differ in the quotes around their numbers. -/
def RequotedMessage : Tree → Tree → Prop :=
  Alike ["fee_recipient", "gas_limit", "timestamp", "pubkey"] requotedMessage

def requotedSigned (name : String) : Tree → Tree → Prop :=
  if name = "message" then RequotedMessage else Eq

def RequotedSigned : Tree → Tree → Prop := Alike ["message", "signature"] requotedSigned

def requoted (name : String) : Tree → Tree → Prop :=
  if name = "slot" then Respelled else if name = "entry" then RequotedSigned else Eq

/-- Two registrations that differ in the quotes around their numbers. -/
def Requoted : Tree → Tree → Prop := Alike ["slot", "entry", "compliance_list"] requoted

theorem Alike.symm {names : List String} {related : String → Tree → Tree → Prop}
    (relatedSymm : ∀ {name t u}, related name t u → related name u t)
    (h : Alike names related t u) : Alike names related u t := by
  cases h with
  | same => exact .same t
  | object entries =>
    refine .object (entries.flip.imp ?_)
    rintro e f ⟨hkey, hvalue⟩
    exact ⟨hkey.symm, fun name hname => relatedSymm (hvalue name (hkey.trans hname))⟩
  | row length items => exact .row length.symm fun i t u ht hu => relatedSymm (items i u t hu ht)

theorem symm_ite {c : Prop} [Decidable c] {r s : Tree → Tree → Prop}
    (hr : ∀ {t u}, r t u → r u t) (hs : ∀ {t u}, s t u → s u t)
    (h : (if c then r else s) t u) : (if c then r else s) u t := by
  by_cases hc : c
  · rw [if_pos hc] at h ⊢
    exact hr h
  · rw [if_neg hc] at h ⊢
    exact hs h

theorem RequotedMessage.symm (h : RequotedMessage t u) : RequotedMessage u t :=
  Alike.symm (symm_ite Respelled.symm Eq.symm) h

theorem RequotedSigned.symm (h : RequotedSigned t u) : RequotedSigned u t :=
  Alike.symm (symm_ite RequotedMessage.symm Eq.symm) h

theorem Requoted.symm (h : Requoted t u) : Requoted u t :=
  Alike.symm (symm_ite Respelled.symm (symm_ite RequotedSigned.symm Eq.symm)) h

/-- What stands under a name in two such objects. -/
theorem under_of_alike {related : String → Tree → Tree → Prop} {es : List (String × Tree)}
    {fs : List (Json.StringLiteral × Tree)}
    (h : List.Forall₂ (fun e f => e.1 = f.1 ∧ ∀ name, e.1 = .ok name → related name e.2 f.2)
      (Json.keyed es) fs) :
    ∃ gs, fs = Json.keyed gs ∧
      ∀ name, List.Forall₂ (related name) (under name es) (under name gs) := by
  induction es generalizing fs with
  | nil =>
    cases h
    exact ⟨[], rfl, fun name => .nil⟩
  | cons e es ih =>
    obtain ⟨k, t⟩ := e
    cases h with
    | @cons _ f _ fs hfirst hmore =>
      obtain ⟨hkey, hvalue⟩ := hfirst
      obtain ⟨gs, rfl, hgs⟩ := ih hmore
      obtain ⟨k', u⟩ := f
      have hk : (.ok k : Json.StringLiteral) = k' := hkey
      subst hk
      refine ⟨(k, u) :: gs, rfl, fun name => ?_⟩
      by_cases hname : k = name
      · subst hname
        rw [Json.under_cons_self, Json.under_cons_self]
        exact .cons (hvalue k rfl) (hgs k)
      · rw [Json.under_cons_of_ne hname, Json.under_cons_of_ne hname]
        exact hgs name

/-- A single tree under a name is related to a single tree. -/
theorem under_single {related : Tree → Tree → Prop} {ts us : List Tree}
    (h : List.Forall₂ related ts us) (ht : ts = [t]) : ∃ u, us = [u] ∧ related t u := by
  subst ht
  cases h with
  | cons hrel hmore =>
    cases hmore
    exact ⟨_, rfl, hrel⟩

theorem isTime_of_respelled {ts us : List Tree} (h : List.Forall₂ Respelled ts us)
    (htime : IsTime ts w) : IsTime us w := by
  cases htime with
  | absent =>
    cases h
    exact .absent
  | given hword =>
    obtain ⟨u, rfl, hrel⟩ := under_single h rfl
    exact .given (isWord_of_respelled hrel hword)

theorem isMessage_of_requoted {m : RegistrationMessage} (h : RequotedMessage t u)
    (hm : IsMessage t m) : IsMessage u m := by
  cases hm with
  | object hfee hgas hlimit htime hkey =>
    cases h with
    | same => exact .object hfee hgas hlimit htime hkey
    | object entries =>
      obtain ⟨gs, rfl, hunder⟩ := under_of_alike entries
      obtain ⟨fee, hfee', rfl⟩ := under_single (hunder "fee_recipient") hfee
      obtain ⟨gas, hgas', hrel⟩ := under_single (hunder "gas_limit") hgas
      obtain ⟨key, hkey', rfl⟩ := under_single (hunder "pubkey") hkey
      exact .object hfee' hgas' (isWord_of_respelled hrel hlimit)
        (isTime_of_respelled (hunder "timestamp") htime) hkey'
  | row hlimit hstamp =>
    cases h with
    | same => exact .row hlimit hstamp
    | @row _ us _ length items =>
      match us, length with
      | [fee, gas, time, key], _ =>
        have hfee : _ = fee := items 0 _ _ rfl rfl
        have hgas : Respelled _ gas := items 1 _ _ rfl rfl
        have htime : Respelled _ time := items 2 _ _ rfl rfl
        have hkey : _ = key := items 3 _ _ rfl rfl
        subst hfee hkey
        exact .row (isWord_of_respelled hgas hlimit) (isWord_of_respelled htime hstamp)

theorem isSigned_of_requoted {e : SignedRegistration} (h : RequotedSigned t u)
    (he : IsSigned t e) : IsSigned u e := by
  cases he with
  | object hmessage hstates hsignature =>
    cases h with
    | same => exact .object hmessage hstates hsignature
    | object entries =>
      obtain ⟨gs, rfl, hunder⟩ := under_of_alike entries
      obtain ⟨m, hmessage', hrel⟩ := under_single (hunder "message") hmessage
      obtain ⟨s, hsignature', rfl⟩ := under_single (hunder "signature") hsignature
      exact .object hmessage' (isMessage_of_requoted hrel hstates) hsignature'
  | row hstates =>
    cases h with
    | same => exact .row hstates
    | @row _ us _ length items =>
      match us, length with
      | [m, s], _ =>
        have hm : RequotedMessage _ m := items 0 _ _ rfl rfl
        have hs : _ = s := items 1 _ _ rfl rfl
        subst hs
        exact .row (isMessage_of_requoted hm hstates)

/-- Behind the two other fields of a row there is the name, or nothing. -/
theorem nameIn_of_same {ts us : List Tree} {x : Option String} (h : NameIn ts x)
    (length : us.length = ts.length) (same : ∀ t u, ts[0]? = some t → us[0]? = some u → t = u) :
    NameIn us x := by
  have heq : us = ts := by
    cases h with
    | absent => exact List.length_eq_zero_iff.mp length
    | null =>
      obtain ⟨u, rfl⟩ := List.length_eq_one_iff.mp length
      rw [same _ u rfl rfl]
    | given name =>
      obtain ⟨u, rfl⟩ := List.length_eq_one_iff.mp length
      rw [same _ u rfl rfl]
  rwa [heq]

theorem isRegistration_of_requoted {r : Registration} (h : Requoted t u)
    (hr : IsRegistration t r) : IsRegistration u r := by
  cases hr with
  | object hslot hnumber hentry hstates hlist =>
    cases h with
    | same => exact .object hslot hnumber hentry hstates hlist
    | object entries =>
      obtain ⟨gs, rfl, hunder⟩ := under_of_alike entries
      obtain ⟨slot, hslot', hrel⟩ := under_single (hunder "slot") hslot
      obtain ⟨e, hentry', hsigned⟩ := under_single (hunder "entry") hentry
      have hnames : under "compliance_list" _ = under "compliance_list" gs :=
        List.forall₂_eq_eq_eq ▸ (hunder "compliance_list" : List.Forall₂ Eq _ _)
      exact .object hslot' (isWord_of_respelled hrel hnumber) hentry'
        (isSigned_of_requoted hsigned hstates) (hnames ▸ hlist)
  | row hnumber hstates hlist =>
    cases h with
    | same => exact .row hnumber hstates hlist
    | @row _ us _ length items =>
      match us, length with
      | slot :: e :: more, hlength =>
        have hslot : Respelled _ slot := items 0 _ _ rfl rfl
        have hentry : RequotedSigned _ e := items 1 _ _ rfl rfl
        refine .row (isWord_of_respelled hslot hnumber) (isSigned_of_requoted hentry hstates) ?_
        exact nameIn_of_same hlist (Nat.succ.inj (Nat.succ.inj hlength)) fun t u => items 2 t u

/-! ### Where the numbers are -/

/-- A value that stands in a record under the name of a field, or in a row at its place. -/
inductive HasField (name : String) (place : Nat) : Tree → Tree → Prop
  | object {es : List (Json.StringLiteral × Tree)} {stop : Option Json.Break} {v : Tree}
      (entry : (.ok name, v) ∈ es) : HasField name place (.object es stop) v
  | row {ts : List Tree} {stop : Option Json.Break} {v : Tree} (item : ts[place]? = some v) :
    HasField name place (.array ts stop) v

/-- A value that stands in a registration for its slot, its gas limit or its time stamp. -/
def HasNumber (t v : Tree) : Prop :=
  HasField "slot" 0 t v ∨ ∃ e m, HasField "entry" 1 t e ∧ HasField "message" 0 e m ∧
    (HasField "gas_limit" 1 m v ∨ HasField "timestamp" 2 m v)

theorem mem_under_of_keyed {name : String} {es : List (String × Tree)}
    (h : (.ok name, v) ∈ Json.keyed es) : v ∈ under name es := by
  obtain ⟨e, he, heq⟩ := List.mem_map.mp h
  obtain ⟨hname, rfl⟩ := Prod.mk.inj heq
  have hsame : e.1 = name := Except.ok.inj hname
  exact List.mem_map.mpr ⟨e, List.mem_filter.mpr ⟨he, decide_eq_true hsame⟩, rfl⟩

theorem eq_of_hasField {name : String} {place : Nat} {es : List (String × Tree)}
    {stop : Option Json.Break} (h : HasField name place (.object (Json.keyed es) stop) v)
    (ht : under name es = [t]) : v = t := by
  cases h with
  | object entry =>
    have hv := mem_under_of_keyed entry
    rw [ht] at hv
    exact List.mem_singleton.mp hv

theorem isWord_of_isTime {ts : List Tree} (htime : IsTime ts w) (hv : v ∈ ts) :
    ∃ w, IsWord v w := by
  cases htime with
  | absent => cases hv
  | given hword =>
    rw [List.mem_singleton.mp hv]
    exact ⟨_, hword⟩

theorem isWord_of_message {m : RegistrationMessage} (hm : IsMessage t m)
    (h : HasField "gas_limit" 1 t v ∨ HasField "timestamp" 2 t v) : ∃ w, IsWord v w := by
  cases hm with
  | object hfee hgas hlimit htime hkey =>
    rcases h with h | h
    · rw [eq_of_hasField h hgas]
      exact ⟨_, hlimit⟩
    · cases h with
      | object entry => exact isWord_of_isTime htime (mem_under_of_keyed entry)
  | row hlimit hstamp =>
    rcases h with h | h
    · cases h with
      | row item =>
        cases item
        exact ⟨_, hlimit⟩
    · cases h with
      | row item =>
        cases item
        exact ⟨_, hstamp⟩

/-- Every number of a registration is one. -/
theorem isWord_of_hasNumber {r : Registration} (hr : IsRegistration t r) (h : HasNumber t v) :
    ∃ w, IsWord v w := by
  rcases h with h | ⟨e, m, he, hm, h⟩
  · cases hr with
    | object hslot hnumber hentry hstates hlist =>
      rw [eq_of_hasField h hslot]
      exact ⟨_, hnumber⟩
    | row hnumber hstates hlist =>
      cases h with
      | row item =>
        cases item
        exact ⟨_, hnumber⟩
  · have hsigned : ∃ s, IsSigned e s := by
      cases hr with
      | object hslot hnumber hentry hstates hlist =>
        rw [eq_of_hasField he hentry]
        exact ⟨_, hstates⟩
      | row hnumber hstates hlist =>
        cases he with
        | row item =>
          cases item
          exact ⟨_, hstates⟩
    obtain ⟨s, hs⟩ := hsigned
    cases hs with
    | object hmessage hstates hsignature =>
      rw [eq_of_hasField hm hmessage] at h
      exact isWord_of_message hstates h
    | row hstates =>
      cases hm with
      | row item =>
        cases item
        exact isWord_of_message hstates h

/-! ### Whole responses -/

theorem parse_of_requoted {b c : Bytes} {ts us : List Tree} {rs : List Registration}
    (hb : Json.Spells (.item (.array ts none)) b) (hc : Json.Spells (.item (.array us none)) c)
    (h : List.Forall₂ Requoted ts us) (hread : parse b = .ok rs) : parse c = .ok rs := by
  obtain ⟨vs, hspells, hall⟩ := parse_eq_ok_iff.mp hread
  have hsame : vs = ts := by
    have htree := Json.tree_unique hspells hb
    exact (Tree.array.inj htree).1
  subst hsame
  refine parse_eq_ok_iff.mpr ⟨us, hc, ?_⟩
  clear hb hc hread hspells
  induction h generalizing rs with
  | nil =>
    cases hall
    exact .nil
  | cons hfirst _ ih =>
    cases hall with
    | cons hr hmore => exact .cons (isRegistration_of_requoted hfirst hr) (ih hmore)

/-- **Numbers are read from their two spellings and from nothing else.**  A value is read as a
number just if it is an integer of that value, without sign, fraction and exponent, or a text of
it; both must fit a word.  A response is read just if it is an array of registrations, so a number
that is none refuses the whole of it.  Quotes around integers make no difference. -/
theorem reads_numbers :
    (∀ depth t w, word depth t = .ok w ↔ IsWord t w) ∧
    (∀ depth b t w, Json.Spells (.item t) b → (Json.read (word depth) b = .ok w ↔ IsWord t w)) ∧
    (∀ b rs, parse b = .ok rs ↔
      ∃ ts, Json.Spells (.item (.array ts none)) b ∧ List.Forall₂ IsRegistration ts rs) ∧
    (∀ b ts t v, Json.Spells (.item (.array ts none)) b → t ∈ ts → HasNumber t v →
      (∀ w, ¬IsWord v w) → ∃ e, parse b = .error e) ∧
    ∀ b c ts us, Json.Spells (.item (.array ts none)) b → Json.Spells (.item (.array us none)) c →
      List.Forall₂ Requoted ts us → ∀ rs, parse b = .ok rs ↔ parse c = .ok rs := by
  refine ⟨fun _ _ _ => word_eq_ok_iff, ?_, fun _ _ => parse_eq_ok_iff, ?_, ?_⟩
  · intro depth b t w spelled
    rw [Json.read_of_spells spelled, word_eq_ok_iff]
  · intro b ts t v spelled ht hv hnone
    cases hread : parse b with
    | error e => exact ⟨e, rfl⟩
    | ok rs =>
      obtain ⟨us, hspells, hall⟩ := parse_eq_ok_iff.mp hread
      cases Json.tree_unique spelled hspells
      obtain ⟨r, -, hr⟩ := exists_of_mem_forall₂ hall ht
      obtain ⟨w, hw⟩ := isWord_of_hasNumber hr hv
      exact absurd hw (hnone w)
  · intro b c ts us hb hc h rs
    have hback : List.Forall₂ Requoted us ts := h.flip.imp fun _ _ => Requoted.symm
    exact ⟨parse_of_requoted hb hc h, parse_of_requoted hc hb hback⟩

/-- The greatest slot, bare and in quotes; and what is no slot: minus zero, one with a fraction,
a thousand with an exponent, the first number beyond, a lone sign, null, and a number in an
array. -/
theorem reads_numbers_greatest :
    let greatest : UInt64 := 18446744073709551615
    let digits := Json.natDigits greatest.toNat
    let response (slot : Value) : Value := .array [.object [("slot", slot), ("entry", .object [
      ("message", .object [("fee_recipient", .string ""), ("gas_limit", .nat 30),
        ("pubkey", .string "")]), ("signature", .string "")])]]
    let quoted : Value := .string (String.ofList (digits.map Nat.digitChar))
    let bad : List Value := [.number ⟨true, [0], [], none⟩, .number ⟨false, [1], [0], none⟩,
      .number ⟨false, [1], [], some (false, [3])⟩, .nat Word.bound, .string "+", .null,
      .array [.nat 1]]
    parse (response (.nat greatest.toNat)).write = .ok [⟨greatest, ⟨⟨"", 30, 0, ""⟩, ""⟩, none⟩] ∧
    parse (response quoted).write = .ok [⟨greatest, ⟨⟨"", 30, 0, ""⟩, ""⟩, none⟩] ∧
    ∀ v ∈ bad, ∃ e, parse (response v).write = .error e := by
  intro greatest digits response quoted bad
  have hgreatest : IsWord (.ofValue (.nat greatest.toNat)) greatest :=
    .bare (Json.ofDigits_natDigits greatest.toNat)
  have hspells : ∀ v : Value, v.Sound →
      Json.Spells (.item (.ofValue (response v))) (response v).write := by
    intro v hv
    exact (Json.spells_write (response v) ⟨⟨hv, ⟨⟨trivial, Json.sound_nat 30, trivial, trivial⟩,
      trivial, trivial⟩, trivial⟩, trivial⟩).compact
  have hbare := hspells (.nat greatest.toNat) (Json.sound_nat _)
  have hquoted := hspells quoted trivial
  have hread : parse (response (.nat greatest.toNat)).write =
      .ok [⟨greatest, ⟨⟨"", 30, 0, ""⟩, ""⟩, none⟩] := by
    have hmessage : IsMessage (.object (Json.keyed [("fee_recipient", .string (.ok "")),
        ("gas_limit", .ofValue (.nat 30)), ("pubkey", .string (.ok ""))]) none) ⟨"", 30, 0, ""⟩ :=
      .object rfl rfl (.bare (Json.ofDigits_natDigits 30)) .absent rfl
    have hsigned : IsSigned (.object (Json.keyed [("message", .object (Json.keyed _) none),
        ("signature", .string (.ok ""))]) none) ⟨⟨"", 30, 0, ""⟩, ""⟩ := .object rfl hmessage rfl
    have hregistration : IsRegistration (.object (Json.keyed [("slot", _),
        ("entry", .object (Json.keyed _) none)]) none)
        ⟨greatest, ⟨⟨"", 30, 0, ""⟩, ""⟩, none⟩ := .object rfl hgreatest rfl hsigned .absent
    exact (reads_numbers.2.2.1 _ _).mpr ⟨_, hbare, .cons hregistration .nil⟩
  refine ⟨hread, ?_, ?_⟩
  · have hslot : Respelled (.ofValue (.nat greatest.toNat)) (.ofValue quoted) :=
      .quoted (Json.digits_natDigits _)
    have hrequoted : ∀ t, Requoted
        (.object [(.ok "slot", .ofValue (.nat greatest.toNat)), (.ok "entry", t)] none)
        (.object [(.ok "slot", .ofValue quoted), (.ok "entry", t)] none) := by
      intro t
      refine .object (.cons ⟨rfl, ?_⟩ (.cons ⟨rfl, ?_⟩ .nil))
      · rintro name ⟨⟩
        exact hslot
      · rintro name ⟨⟩
        exact Alike.same _
    exact (reads_numbers.2.2.2.2 _ _ _ _ hbare hquoted (.cons (hrequoted _) .nil) _).mp hread
  · have hone : Json.Digits [1] := ⟨by decide, by decide⟩
    have hzero : Json.Literal.Sound ⟨true, [0], [], none⟩ :=
      ⟨⟨by decide, by decide⟩, fun ds h => (List.cons.inj h).2.symm, nofun, nofun⟩
    have hfraction : Json.Literal.Sound ⟨false, [1], [0], none⟩ :=
      ⟨hone, nofun, by decide, nofun⟩
    have hexponent : Json.Literal.Sound ⟨false, [1], [], some (false, [3])⟩ := by
      refine ⟨hone, nofun, nofun, ?_⟩
      rintro negative ds ⟨⟩
      exact ⟨by decide, by decide⟩
    have hbeyond : ∀ w, ¬IsWord (.ofValue (.nat Word.bound)) w := by
      rintro w ⟨hvalue⟩
      rw [Json.ofDigits_natDigits] at hvalue
      exact absurd w.toNat_lt (Nat.not_lt.mpr hvalue.le)
    have hsign : ∀ w, ¬IsWord (.string (.ok "+")) w := by
      rintro w ⟨⟩
      rename_i text
      have hread := text.parseWord_trim
      rw [show Decimal.parseWord (Text.trim "+") = .error .invalidDigit by decide] at hread
      cases hread
    have hbad : ∀ v ∈ bad, v.Sound ∧ ∀ w, ¬IsWord (.ofValue v) w := by
      refine List.forall_mem_cons.mpr ⟨⟨hzero, nofun⟩, List.forall_mem_cons.mpr
        ⟨⟨hfraction, nofun⟩, List.forall_mem_cons.mpr ⟨⟨hexponent, nofun⟩, List.forall_mem_cons.mpr
        ⟨⟨Json.sound_nat _, hbeyond⟩, List.forall_mem_cons.mpr ⟨⟨trivial, hsign⟩,
        List.forall_mem_cons.mpr ⟨⟨trivial, nofun⟩, List.forall_mem_singleton.mpr
        ⟨⟨Json.sound_nat 1, trivial⟩, nofun⟩⟩⟩⟩⟩⟩⟩
    intro v hv
    obtain ⟨hsound, hnone⟩ := hbad v hv
    exact reads_numbers.2.2.2.1 _ _ _ _ (hspells v hsound) List.mem_cons_self
      (Or.inl (.object List.mem_cons_self)) hnone

end Registration

end ProposerBook
