/-
Which texts are registrations.

Each of the three records is an object, with one entry for each field and with whatever else
between them, or a row of its fields.  A time stamp may be missing in an object, but not in a row,
where the key stands behind it; the name of a list may be missing in both.  A number is an integer
without a sign that fits a word, or a text that spells one.

What is read of a record is what it is, and nothing else is read: an entry that is worked in tells
what stood under its name, and entries of other names only had no fault in them.  So a response is
read just if it is an array of registrations, and one bad field anywhere refuses the whole of it.
-/
import ProposerBook.Proofs.Json.Sound
import ProposerBook.Proofs.Proposer.Registration

namespace ProposerBook

namespace Registration

open Json (Completes Tree under)

/-! ### Numbers -/

/-- A tree that stands for a word: an integer of that value without a sign, or a text of it. -/
inductive IsWord : Tree → UInt64 → Prop
  | bare {ds : List Nat} {w : UInt64} (value : Json.Number.ofDigits ds = w.toNat) :
    IsWord (.number { negative := false, whole := ds }) w
  | quoted {s : String} {w : UInt64} (text : Decimal.Spells s w) : IsWord (.string (.ok s)) w

variable {t : Tree} {w : UInt64} {depth : Nat}

theorem skip_of_isWord (h : IsWord t w) : t.skip = none := by
  cases h with
  | bare => rfl
  | quoted => rfl

theorem word_string (s : Json.StringLiteral) : word depth (.string s) =
    (Json.liftFault s >>= fun s => (Decimal.parseWord (Text.trim s)).mapError .invalid) := rfl

theorem word_number (l : Json.Literal) : word depth (.number l) =
    match l.number with
    | .ok (.natural n) => .ok (UInt64.ofNat n)
    | .ok _ => .error (.mismatch (.noVariant "Quoted"))
    | .error f => .error (.fault f) := by
  unfold word Tree.keep
  dsimp only
  cases l.number with
  | error f => rfl
  | ok n => cases n <;> rfl

/-- A literal is an integer that fits a word just if it has no sign, no fraction and no exponent,
and a value that fits. -/
theorem number_eq_natural_iff {l : Json.Literal} {n : Nat} : l.number = .ok (.natural n) ↔
    l = { negative := false, whole := l.whole } ∧ Json.Number.ofDigits l.whole = n ∧
      n < Word.bound := by
  obtain ⟨negative, whole, fraction, exponent?⟩ := l
  have hfloat : ∀ {x : Except Json.Fault Float}, x.map Json.Number.float ≠ .ok (.natural n) := by
    intro x h
    obtain ⟨y, -, hy⟩ := map_eq_ok_iff.mp h
    cases hy
  unfold Json.Literal.number
  dsimp only
  constructor
  · intro h
    split at h
    · exact absurd h hfloat
    split at h
    · rename_i hplain hfits
      cases h
      simp_all
    split at h
    · cases h
    · exact absurd h hfloat
  · rintro ⟨hplain, rfl, hfits⟩
    cases hplain
    simp [hfits]

/-- **A number is read just from its two spellings**, wherever it stands. -/
theorem word_eq_ok_iff : word depth t = .ok w ↔ IsWord t w := by
  constructor
  · intro h
    cases t with
    | number l =>
      rw [word_number] at h
      split at h
      · rename_i n hn
        obtain ⟨hplain, hvalue, hfits⟩ := number_eq_natural_iff.mp hn
        cases h
        rw [hplain]
        refine .bare ?_
        rw [hvalue]
        exact (UInt64.toNat_ofNat_of_lt hfits).symm
      · cases h
      · cases h
    | string s =>
      rw [word_string] at h
      obtain ⟨s', hs, hread⟩ := bind_eq_ok_iff.mp h
      rw [Json.liftFault_eq_ok_iff.mp hs]
      exact .quoted (Decimal.parseWord_trim_eq_ok_iff.mp (mapError_eq_ok_iff.mp hread))
    | _ =>
      -- All that is left is kept as it is, and then refused.
      obtain ⟨u, -, hend⟩ := bind_eq_ok_iff.mp h
      cases hend
  · intro h
    cases h with
    | @bare ds w value =>
      have hnumber : Json.Literal.number { negative := false, whole := ds } =
          .ok (.natural w.toNat) :=
        number_eq_natural_iff.mpr ⟨rfl, value, w.toNat_lt⟩
      rw [word_number, hnumber]
      show Except.ok (UInt64.ofNat w.toNat) = .ok w
      rw [UInt64.ofNat_toNat]
    | quoted text =>
      rw [word_string, Json.liftFault_ok, ok_bind, text.parseWord_trim]
      rfl

/-! ### Records -/

/-- What stands under the name of a time stamp, which may be nothing. -/
inductive IsTime : List Tree → UInt64 → Prop
  | absent : IsTime [] 0
  | given {t : Tree} {w : UInt64} (word : IsWord t w) : IsTime [t] w

inductive IsMessage : Tree → RegistrationMessage → Prop
  | object {es : List (String × Tree)} {m : RegistrationMessage} {gas : Tree}
      (feeRecipient : under "fee_recipient" es = [.string (.ok m.feeRecipient)])
      (gasLimit : under "gas_limit" es = [gas]) (limit : IsWord gas m.gasLimit)
      (timestamp : IsTime (under "timestamp" es) m.timestamp)
      (pubkey : under "pubkey" es = [.string (.ok m.pubkey)]) :
    IsMessage (.object (Json.keyed es) none) m
  | row {m : RegistrationMessage} {gas time : Tree} (limit : IsWord gas m.gasLimit)
      (stamp : IsWord time m.timestamp) :
    IsMessage (.array [.string (.ok m.feeRecipient), gas, time, .string (.ok m.pubkey)] none) m

inductive IsSigned : Tree → SignedRegistration → Prop
  | object {es : List (String × Tree)} {e : SignedRegistration} {message : Tree}
      (under_message : under "message" es = [message]) (states : IsMessage message e.message)
      (signature : under "signature" es = [.string (.ok e.signature)]) :
    IsSigned (.object (Json.keyed es) none) e
  | row {e : SignedRegistration} {message : Tree} (states : IsMessage message e.message) :
    IsSigned (.array [message, .string (.ok e.signature)] none) e

inductive IsRegistration : Tree → Registration → Prop
  | object {es : List (String × Tree)} {r : Registration} {slot entry : Tree}
      (under_slot : under "slot" es = [slot]) (number : IsWord slot r.slot)
      (under_entry : under "entry" es = [entry]) (states : IsSigned entry r.entry)
      (complianceList : NameIn (under "compliance_list" es) r.complianceList) :
    IsRegistration (.object (Json.keyed es) none) r
  | row {r : Registration} {slot entry : Tree} {rest : List Tree} (number : IsWord slot r.slot)
      (states : IsSigned entry r.entry) (complianceList : NameIn rest r.complianceList) :
    IsRegistration (.array (slot :: entry :: rest) none) r

/-! ### Fields -/

variable {k : String} {es : List (String × Tree)}

theorem isTime_iff {ts : List Tree} :
    IsTime ts w ↔ ∃ x, Completes (word 4) none ts x ∧ x.getD 0 = w := by
  constructor
  · intro h
    cases h with
    | absent => exact ⟨none, .settled, rfl⟩
    | given hword => exact ⟨some w, .read (word_eq_ok_iff.mpr hword), rfl⟩
  · rintro ⟨x, hx, rfl⟩
    rcases Json.completes_none_iff.mp hx with ⟨rfl, rfl⟩ | ⟨t, y, rfl, rfl, hy⟩
    · exact .absent
    · exact .given (word_eq_ok_iff.mp hy)

theorem optional_eq_ok_iff {t : Tree} {x : Option String} :
    (Json.optional Json.string t : Except (Json.Refusal Fault) _) = .ok x ↔ NameIn [t] x := by
  constructor
  · intro h
    by_cases hnull : t = .null
    · subst hnull
      cases h
      exact .null
    · rw [Json.optional_of_ne_null hnull] at h
      obtain ⟨s, hs, rfl⟩ := map_eq_ok_iff.mp h
      rw [Json.string_eq_ok_iff.mp hs]
      exact .given s
  · intro h
    cases h with
    | null => rfl
    | given name => rfl

theorem nameIn_iff {ts : List Tree} {name : Option String} : NameIn ts name ↔
    ∃ x, Completes (ε := Fault) (Json.optional Json.string) none ts x ∧ x.getD none = name := by
  refine ⟨NameIn.completes, ?_⟩
  rintro ⟨x, hx, rfl⟩
  rcases Json.completes_none_iff.mp hx with ⟨rfl, rfl⟩ | ⟨t, y, rfl, rfl, hy⟩
  · exact .absent
  · exact optional_eq_ok_iff.mp hy

theorem skip_of_nameIn {ts : List Tree} {x : Option String} (h : NameIn ts x) :
    ∀ t ∈ ts, t.skip = none := by
  cases h with
  | absent => nofun
  | null => exact List.forall_mem_singleton.mpr rfl
  | given name => exact List.forall_mem_singleton.mpr rfl

/-- The tree of a text that has to be there. -/
theorem completes_string_iff {ts : List Tree} {s : String} :
    Completes (ε := Fault) Json.string none ts (some s) ↔ ts = [.string (.ok s)] := by
  rw [Json.completes_none_some_iff]
  simp [Json.string_eq_ok_iff]

theorem skip_of_keyed_iff : (Tree.object (Json.keyed es) none).skip = none ↔
    ∀ e ∈ es, e.2.skip = none := by
  constructor
  · exact fun h => Json.skip_of_keyed (Option.or_eq_none_iff.mp h).1
  · intro h
    refine Option.or_eq_none_iff.mpr ⟨Json.skipEntries_eq_none_iff.mpr ?_, rfl⟩
    intro e he
    obtain ⟨f, hf, rfl⟩ := List.mem_map.mp he
    exact h f hf

theorem skip_of_row_iff {ts : List Tree} :
    (Tree.array ts none).skip = none ↔ ∀ t ∈ ts, t.skip = none := by
  rw [← Json.skipItems_eq_none_iff]
  show (Json.skipItems ts).or none = none ↔ _
  rw [Option.or_none]

/-! ### Messages -/

theorem MessageTo.of_step {last p p' : PartialMessage} (step : p.step k t = .ok p')
    (h : MessageTo last p' es) : MessageTo last p ((k, t) :: es) := by
  obtain ⟨hfee, hgas, htime, hkey, hwhole⟩ := h
  have hnumber : ∀ {w}, word 4 t = .ok w → t.skip = none :=
    fun hw => skip_of_isWord (word_eq_ok_iff.mp hw)
  unfold PartialMessage.step at step
  split at step
  · obtain ⟨x, hx, hend⟩ := bind_eq_ok_iff.mp step
    cases hend
    exact ⟨.of_once hx hfee, hgas.behind (by decide), htime.behind (by decide),
      hkey.behind (by decide),
      List.forall_mem_cons.mpr ⟨Json.skip_of_once Json.skip_of_string hx, hwhole⟩⟩
  · obtain ⟨x, hx, hend⟩ := bind_eq_ok_iff.mp step
    cases hend
    exact ⟨hfee.behind (by decide), .of_once hx hgas, htime.behind (by decide),
      hkey.behind (by decide), List.forall_mem_cons.mpr ⟨Json.skip_of_once hnumber hx, hwhole⟩⟩
  · obtain ⟨x, hx, hend⟩ := bind_eq_ok_iff.mp step
    cases hend
    exact ⟨hfee.behind (by decide), hgas.behind (by decide), .of_once hx htime,
      hkey.behind (by decide), List.forall_mem_cons.mpr ⟨Json.skip_of_once hnumber hx, hwhole⟩⟩
  · obtain ⟨x, hx, hend⟩ := bind_eq_ok_iff.mp step
    cases hend
    exact ⟨hfee.behind (by decide), hgas.behind (by decide), htime.behind (by decide),
      .of_once hx hkey,
      List.forall_mem_cons.mpr ⟨Json.skip_of_once Json.skip_of_string hx, hwhole⟩⟩
  · rename_i hnofee hnogas hnotime hnokey
    obtain ⟨u, hskip, hend⟩ := bind_eq_ok_iff.mp step
    cases hend
    exact ⟨hfee.behind hnofee, hgas.behind hnogas, htime.behind hnotime, hkey.behind hnokey,
      List.forall_mem_cons.mpr ⟨Json.ignored_eq_ok_iff.mp hskip, hwhole⟩⟩

/-- The entries of an object come to a message just if it is what the invariant leaves. -/
theorem fields_message_iff {fs : List (Json.StringLiteral × Tree)} {last : PartialMessage} :
    Json.fields PartialMessage.step {} fs = .ok last ↔
      ∃ es, fs = Json.keyed es ∧ MessageTo last {} es := by
  constructor
  · exact Json.invariant_of_fields (fun _ _ _ _ _ => MessageTo.of_step)
      ⟨.settled, .settled, .settled, .settled, nofun⟩
  · rintro ⟨es, rfl, h⟩
    exact Json.fields_of_invariant (fun _ _ _ _ => MessageTo.step) (fun _ => MessageTo.eq_of_nil) h

theorem message_object_iff {fs : List (Json.StringLiteral × Tree)} {stop : Option Json.Break}
    {m : RegistrationMessage} : message (.object fs stop) = .ok m ↔ stop = none ∧
      ∃ x, x.getD 0 = m.timestamp ∧ Json.fields PartialMessage.step {} fs =
        .ok ⟨some m.feeRecipient, some m.gasLimit, x, some m.pubkey⟩ := by
  constructor
  · intro h
    obtain ⟨p, hfields, hclosing⟩ := bind_eq_ok_iff.mp h
    obtain ⟨u, hstop, hfee⟩ := bind_eq_ok_iff.mp hclosing
    obtain ⟨feeRecipient, hfeeRecipient, hgas⟩ := bind_eq_ok_iff.mp hfee
    obtain ⟨gasLimit, hgasLimit, hkey⟩ := bind_eq_ok_iff.mp hgas
    obtain ⟨pubkey, hpubkey, hend⟩ := bind_eq_ok_iff.mp hkey
    rw [Json.required_eq_ok_iff] at hfeeRecipient hgasLimit hpubkey
    cases hend
    refine ⟨Json.closing_eq_ok_iff.mp hstop, p.timestamp, rfl, ?_⟩
    rw [hfields, ← hfeeRecipient, ← hgasLimit, ← hpubkey]
  · rintro ⟨rfl, x, hx, hfields⟩
    refine bind_eq_ok_iff.mpr ⟨_, hfields, ?_⟩
    show Except.ok (⟨m.feeRecipient, m.gasLimit, x.getD 0, m.pubkey⟩ : RegistrationMessage) = .ok m
    rw [hx]

/-- In a row no field may be missing, for the key comes last. -/
theorem message_row_iff {ts : List Tree} {stop : Option Json.Break} {m : RegistrationMessage} :
    message (.array ts stop) = .ok m ↔ stop = none ∧ ∃ gas time,
      ts = [.string (.ok m.feeRecipient), gas, time, .string (.ok m.pubkey)] ∧
        IsWord gas m.gasLimit ∧ IsWord time m.timestamp := by
  constructor
  · intro h
    obtain ⟨⟨fee, row₁⟩, hfee, h⟩ := bind_eq_ok_iff.mp h
    obtain ⟨⟨gas, row₂⟩, hgas, h⟩ := bind_eq_ok_iff.mp h
    obtain ⟨⟨time, row₃⟩, htime, h⟩ := bind_eq_ok_iff.mp h
    obtain ⟨⟨key, row₄⟩, hkey, h⟩ := bind_eq_ok_iff.mp h
    obtain ⟨u, hdone, hend⟩ := bind_eq_ok_iff.mp h
    cases hend
    obtain ⟨t₁, hitems₁, hstop₁, ht₁⟩ := Json.Row.next_eq_ok_iff.mp hfee
    obtain ⟨t₂, hitems₂, hstop₂, ht₂⟩ := Json.Row.next_eq_ok_iff.mp hgas
    obtain ⟨t₄, hitems₄, hstop₄, ht₄⟩ := Json.Row.next_eq_ok_iff.mp hkey
    obtain ⟨hitems, hstop⟩ := Json.Row.finish_eq_ok_iff.mp hdone
    rw [Json.string_eq_ok_iff] at ht₁ ht₄
    dsimp only at hitems₁ hstop₁ hitems₂ hstop₂
    rcases Json.Row.next?_eq_ok_iff.mp htime with
      ⟨hempty, -, -, rfl⟩ | ⟨t₃, y, hitems₃, hstop₃, rfl, ht₃⟩
    · rw [hempty] at hitems₄
      cases hitems₄
    · refine ⟨?_, t₂, t₃, ?_, word_eq_ok_iff.mp ht₂, word_eq_ok_iff.mp ht₃⟩
      · rw [hstop₁, hstop₂, hstop₃, hstop₄, hstop]
      · rw [hitems₁, hitems₂, hitems₃, hitems₄, hitems, ht₁, ht₄]
  · rintro ⟨rfl, gas, time, rfl, hgas, htime⟩
    refine bind_eq_ok_iff.mpr ⟨(m.feeRecipient, _), rfl, ?_⟩
    refine bind_eq_ok_iff.mpr ⟨(m.gasLimit, ⟨_, none⟩), Json.Row.next_eq_ok_iff.mpr
      ⟨gas, rfl, rfl, word_eq_ok_iff.mpr hgas⟩, ?_⟩
    refine bind_eq_ok_iff.mpr ⟨(some m.timestamp, ⟨_, none⟩), Json.Row.next?_eq_ok_iff.mpr
      (Or.inr ⟨time, m.timestamp, rfl, rfl, rfl, word_eq_ok_iff.mpr htime⟩), ?_⟩
    rfl

/-- **Which trees are messages.** -/
theorem message_eq_ok_iff {m : RegistrationMessage} :
    message t = .ok m ↔ t.skip = none ∧ IsMessage t m := by
  constructor
  · intro h
    cases t with
    | object fs stop =>
      obtain ⟨rfl, x, hx, hfields⟩ := message_object_iff.mp h
      obtain ⟨es, rfl, hfee, hgas, htime, hkey, hwhole⟩ := fields_message_iff.mp hfields
      obtain ⟨gas, hunder, hlimit⟩ := Json.completes_none_some_iff.mp hgas
      exact ⟨skip_of_keyed_iff.mpr hwhole, .object (completes_string_iff.mp hfee) hunder
        (word_eq_ok_iff.mp hlimit) (isTime_iff.mpr ⟨x, htime, hx⟩) (completes_string_iff.mp hkey)⟩
    | array ts stop =>
      obtain ⟨rfl, gas, time, rfl, hgas, htime⟩ := message_row_iff.mp h
      refine ⟨skip_of_row_iff.mpr ?_, .row hgas htime⟩
      simp [skip_of_isWord hgas, skip_of_isWord htime, Tree.skip]
    | _ => exact absurd h Json.refuse_ne_ok
  · rintro ⟨hskip, hsays⟩
    cases hsays with
    | object hfee hunder hlimit htime hkey =>
      obtain ⟨x, hcompletes, hx⟩ := isTime_iff.mp htime
      have hgas : Completes (word 4) none _ (some m.gasLimit) :=
        Json.completes_none_some_iff.mpr ⟨_, hunder, word_eq_ok_iff.mpr hlimit⟩
      exact message_object_iff.mpr ⟨rfl, x, hx, fields_message_iff.mpr ⟨_, rfl,
        completes_string_iff.mpr hfee, hgas, hcompletes, completes_string_iff.mpr hkey,
        skip_of_keyed_iff.mp hskip⟩⟩
    | row hgas htime => exact message_row_iff.mpr ⟨rfl, _, _, rfl, hgas, htime⟩

/-! ### Messages with their signatures -/

theorem EntryTo.of_step {last p p' : PartialEntry} (step : p.step k t = .ok p')
    (h : EntryTo last p' es) : EntryTo last p ((k, t) :: es) := by
  obtain ⟨hmessage, hsignature, hwhole⟩ := h
  unfold PartialEntry.step at step
  split at step
  · obtain ⟨x, hx, hend⟩ := bind_eq_ok_iff.mp step
    cases hend
    have hskip := Json.skip_of_once (fun hm => (message_eq_ok_iff.mp hm).1) hx
    exact ⟨.of_once hx hmessage, hsignature.behind (by decide),
      List.forall_mem_cons.mpr ⟨hskip, hwhole⟩⟩
  · obtain ⟨x, hx, hend⟩ := bind_eq_ok_iff.mp step
    cases hend
    exact ⟨hmessage.behind (by decide), .of_once hx hsignature,
      List.forall_mem_cons.mpr ⟨Json.skip_of_once Json.skip_of_string hx, hwhole⟩⟩
  · rename_i hnomessage hnosignature
    obtain ⟨u, hskip, hend⟩ := bind_eq_ok_iff.mp step
    cases hend
    exact ⟨hmessage.behind hnomessage, hsignature.behind hnosignature,
      List.forall_mem_cons.mpr ⟨Json.ignored_eq_ok_iff.mp hskip, hwhole⟩⟩

theorem fields_signed_iff {fs : List (Json.StringLiteral × Tree)} {last : PartialEntry} :
    Json.fields PartialEntry.step {} fs = .ok last ↔
      ∃ es, fs = Json.keyed es ∧ EntryTo last {} es := by
  constructor
  · exact Json.invariant_of_fields (fun _ _ _ _ _ => EntryTo.of_step) ⟨.settled, .settled, nofun⟩
  · rintro ⟨es, rfl, h⟩
    exact Json.fields_of_invariant (fun _ _ _ _ => EntryTo.step) (fun _ => EntryTo.eq_of_nil) h

theorem signed_object_iff {fs : List (Json.StringLiteral × Tree)} {stop : Option Json.Break}
    {e : SignedRegistration} : signed (.object fs stop) = .ok e ↔ stop = none ∧
      Json.fields PartialEntry.step {} fs = .ok ⟨some e.message, some e.signature⟩ := by
  constructor
  · intro h
    obtain ⟨p, hfields, hclosing⟩ := bind_eq_ok_iff.mp h
    obtain ⟨u, hstop, hmessage⟩ := bind_eq_ok_iff.mp hclosing
    obtain ⟨m, hm, hsignature⟩ := bind_eq_ok_iff.mp hmessage
    obtain ⟨s, hs, hend⟩ := bind_eq_ok_iff.mp hsignature
    rw [Json.required_eq_ok_iff] at hm hs
    cases hend
    refine ⟨Json.closing_eq_ok_iff.mp hstop, ?_⟩
    rw [hfields, ← hm, ← hs]
  · rintro ⟨rfl, hfields⟩
    exact bind_eq_ok_iff.mpr ⟨_, hfields, rfl⟩

theorem signed_row_iff {ts : List Tree} {stop : Option Json.Break} {e : SignedRegistration} :
    signed (.array ts stop) = .ok e ↔ stop = none ∧ ∃ t,
      ts = [t, .string (.ok e.signature)] ∧ message t = .ok e.message := by
  constructor
  · intro h
    obtain ⟨⟨m, row₁⟩, hmessage, h⟩ := bind_eq_ok_iff.mp h
    obtain ⟨⟨s, row₂⟩, hsignature, h⟩ := bind_eq_ok_iff.mp h
    obtain ⟨u, hdone, hend⟩ := bind_eq_ok_iff.mp h
    cases hend
    obtain ⟨t₁, hitems₁, hstop₁, ht₁⟩ := Json.Row.next_eq_ok_iff.mp hmessage
    obtain ⟨t₂, hitems₂, hstop₂, ht₂⟩ := Json.Row.next_eq_ok_iff.mp hsignature
    obtain ⟨hitems, hstop⟩ := Json.Row.finish_eq_ok_iff.mp hdone
    dsimp only at hitems₁ hstop₁
    rw [Json.string_eq_ok_iff] at ht₂
    refine ⟨?_, t₁, ?_, ht₁⟩
    · rw [hstop₁, hstop₂, hstop]
    · rw [hitems₁, hitems₂, hitems, ht₂]
  · rintro ⟨rfl, t, rfl, hmessage⟩
    exact bind_eq_ok_iff.mpr ⟨(e.message, ⟨_, none⟩),
      Json.Row.next_eq_ok_iff.mpr ⟨t, rfl, rfl, hmessage⟩, rfl⟩

theorem signed_eq_ok_iff {e : SignedRegistration} :
    signed t = .ok e ↔ t.skip = none ∧ IsSigned t e := by
  constructor
  · intro h
    cases t with
    | object fs stop =>
      obtain ⟨rfl, hfields⟩ := signed_object_iff.mp h
      obtain ⟨es, rfl, hmessage, hsignature, hwhole⟩ := fields_signed_iff.mp hfields
      obtain ⟨m, hunder, hm⟩ := Json.completes_none_some_iff.mp hmessage
      exact ⟨skip_of_keyed_iff.mpr hwhole, .object hunder (message_eq_ok_iff.mp hm).2
        (completes_string_iff.mp hsignature)⟩
    | array ts stop =>
      obtain ⟨rfl, m, rfl, hm⟩ := signed_row_iff.mp h
      obtain ⟨hskip, hstates⟩ := message_eq_ok_iff.mp hm
      refine ⟨skip_of_row_iff.mpr ?_, .row hstates⟩
      exact List.forall_mem_cons.mpr ⟨hskip, List.forall_mem_singleton.mpr rfl⟩
    | _ => exact absurd h Json.refuse_ne_ok
  · rintro ⟨hskip, hstates⟩
    cases hstates with
    | object hunder hstates hsignature =>
      have hwhole := skip_of_keyed_iff.mp hskip
      have hm := message_eq_ok_iff.mpr ⟨Json.skip_of_mem_under hwhole hunder, hstates⟩
      exact signed_object_iff.mpr ⟨rfl, fields_signed_iff.mpr ⟨_, rfl,
        Json.completes_none_some_iff.mpr ⟨_, hunder, hm⟩, completes_string_iff.mpr hsignature,
        hwhole⟩⟩
    | row hstates =>
      have hm := skip_of_row_iff.mp hskip _ List.mem_cons_self
      exact signed_row_iff.mpr ⟨rfl, _, rfl, message_eq_ok_iff.mpr ⟨hm, hstates⟩⟩

/-! ### Registrations -/

theorem RegistrationTo.of_step {last p p' : PartialRegistration} (step : p.step k t = .ok p')
    (h : RegistrationTo last p' es) : RegistrationTo last p ((k, t) :: es) := by
  obtain ⟨hslot, hentry, hlist, hwhole⟩ := h
  unfold PartialRegistration.step at step
  split at step
  · obtain ⟨x, hx, hend⟩ := bind_eq_ok_iff.mp step
    cases hend
    have hskip := Json.skip_of_once (fun hw => skip_of_isWord (word_eq_ok_iff.mp hw)) hx
    exact ⟨.of_once hx hslot, hentry.behind (by decide), hlist.behind (by decide),
      List.forall_mem_cons.mpr ⟨hskip, hwhole⟩⟩
  · obtain ⟨x, hx, hend⟩ := bind_eq_ok_iff.mp step
    cases hend
    have hskip := Json.skip_of_once (fun he => (signed_eq_ok_iff.mp he).1) hx
    exact ⟨hslot.behind (by decide), .of_once hx hentry, hlist.behind (by decide),
      List.forall_mem_cons.mpr ⟨hskip, hwhole⟩⟩
  · obtain ⟨x, hx, hend⟩ := bind_eq_ok_iff.mp step
    cases hend
    have hskip := Json.skip_of_once
      (fun hn => skip_of_nameIn (optional_eq_ok_iff.mp hn) t List.mem_cons_self) hx
    exact ⟨hslot.behind (by decide), hentry.behind (by decide), .of_once hx hlist,
      List.forall_mem_cons.mpr ⟨hskip, hwhole⟩⟩
  · rename_i hnoslot hnoentry hnolist
    obtain ⟨u, hskip, hend⟩ := bind_eq_ok_iff.mp step
    cases hend
    exact ⟨hslot.behind hnoslot, hentry.behind hnoentry, hlist.behind hnolist,
      List.forall_mem_cons.mpr ⟨Json.ignored_eq_ok_iff.mp hskip, hwhole⟩⟩

theorem fields_registration_iff {fs : List (Json.StringLiteral × Tree)}
    {last : PartialRegistration} : Json.fields PartialRegistration.step {} fs = .ok last ↔
      ∃ es, fs = Json.keyed es ∧ RegistrationTo last {} es := by
  constructor
  · exact Json.invariant_of_fields (fun _ _ _ _ _ => RegistrationTo.of_step)
      ⟨.settled, .settled, .settled, nofun⟩
  · rintro ⟨es, rfl, h⟩
    exact Json.fields_of_invariant (fun _ _ _ _ => RegistrationTo.step)
      (fun _ => RegistrationTo.eq_of_nil) h

theorem registration_object_iff {fs : List (Json.StringLiteral × Tree)}
    {stop : Option Json.Break} {r : Registration} : registration (.object fs stop) = .ok r ↔
      stop = none ∧ ∃ x, x.getD none = r.complianceList ∧
        Json.fields PartialRegistration.step {} fs = .ok ⟨some r.slot, some r.entry, x⟩ := by
  constructor
  · intro h
    obtain ⟨p, hfields, hclosing⟩ := bind_eq_ok_iff.mp h
    obtain ⟨u, hstop, h⟩ := bind_eq_ok_iff.mp hclosing
    obtain ⟨slot, hslot, h⟩ := bind_eq_ok_iff.mp h
    obtain ⟨entry, hentry, hend⟩ := bind_eq_ok_iff.mp h
    rw [Json.required_eq_ok_iff] at hslot hentry
    cases hend
    refine ⟨Json.closing_eq_ok_iff.mp hstop, p.complianceList, rfl, ?_⟩
    rw [hfields, ← hslot, ← hentry]
  · rintro ⟨rfl, x, hx, hfields⟩
    refine bind_eq_ok_iff.mpr ⟨_, hfields, ?_⟩
    show Except.ok (⟨r.slot, r.entry, x.getD none⟩ : Registration) = .ok r
    rw [hx]

theorem registration_row_iff {ts : List Tree} {stop : Option Json.Break} {r : Registration} :
    registration (.array ts stop) = .ok r ↔ stop = none ∧ ∃ slot entry rest,
      ts = slot :: entry :: rest ∧ IsWord slot r.slot ∧ signed entry = .ok r.entry ∧
        NameIn rest r.complianceList := by
  constructor
  · intro h
    obtain ⟨⟨slot, row₁⟩, hslot, h⟩ := bind_eq_ok_iff.mp h
    obtain ⟨⟨entry, row₂⟩, hentry, h⟩ := bind_eq_ok_iff.mp h
    obtain ⟨⟨name, row₃⟩, hname, h⟩ := bind_eq_ok_iff.mp h
    obtain ⟨u, hdone, hend⟩ := bind_eq_ok_iff.mp h
    cases hend
    obtain ⟨t₁, hitems₁, hstop₁, ht₁⟩ := Json.Row.next_eq_ok_iff.mp hslot
    obtain ⟨t₂, hitems₂, hstop₂, ht₂⟩ := Json.Row.next_eq_ok_iff.mp hentry
    obtain ⟨hitems, hstop⟩ := Json.Row.finish_eq_ok_iff.mp hdone
    dsimp only at hitems₁ hstop₁
    have hfront : ts = t₁ :: t₂ :: row₂.items := by rw [hitems₁, hitems₂]
    rcases Json.Row.next?_eq_ok_iff.mp hname with
      ⟨hempty, -, rfl, rfl⟩ | ⟨t₃, y, hitems₃, hstop₃, rfl, ht₃⟩
    · refine ⟨?_, t₁, t₂, _, hfront, word_eq_ok_iff.mp ht₁, ht₂, ?_⟩
      · rw [hstop₁, hstop₂, hstop]
      · rw [hempty]
        exact .absent
    · refine ⟨?_, t₁, t₂, _, hfront, word_eq_ok_iff.mp ht₁, ht₂, ?_⟩
      · rw [hstop₁, hstop₂, hstop₃, hstop]
      · rw [hitems₃, hitems]
        exact optional_eq_ok_iff.mp ht₃
  · rintro ⟨rfl, slot, entry, rest, rfl, hslot, hentry, hname⟩
    refine bind_eq_ok_iff.mpr ⟨(r.slot, ⟨_, none⟩), Json.Row.next_eq_ok_iff.mpr
      ⟨slot, rfl, rfl, word_eq_ok_iff.mpr hslot⟩, ?_⟩
    refine bind_eq_ok_iff.mpr ⟨(r.entry, ⟨rest, none⟩), Json.Row.next_eq_ok_iff.mpr
      ⟨entry, rfl, rfl, hentry⟩, ?_⟩
    obtain ⟨x, hcompletes, hx⟩ := hname.completes
    rcases Json.completes_none_iff.mp hcompletes with ⟨rfl, rfl⟩ | ⟨t, y, rfl, rfl, hy⟩
    · show Except.ok (⟨r.slot, r.entry, (none : Option _).getD none⟩ : Registration) = .ok r
      rw [hx]
    · refine bind_eq_ok_iff.mpr ⟨(some y, ⟨[], none⟩), Json.Row.next?_eq_ok_iff.mpr
        (Or.inr ⟨t, y, rfl, rfl, rfl, hy⟩), ?_⟩
      show Except.ok (⟨r.slot, r.entry, (some y).getD none⟩ : Registration) = .ok r
      rw [hx]

/-- **Which trees are registrations.** -/
theorem registration_eq_ok_iff {r : Registration} :
    registration t = .ok r ↔ t.skip = none ∧ IsRegistration t r := by
  constructor
  · intro h
    cases t with
    | object fs stop =>
      obtain ⟨rfl, x, hx, hfields⟩ := registration_object_iff.mp h
      obtain ⟨es, rfl, hslot, hentry, hlist, hwhole⟩ := fields_registration_iff.mp hfields
      obtain ⟨slot, hunder, hnumber⟩ := Json.completes_none_some_iff.mp hslot
      obtain ⟨entry, hunder', hsigned⟩ := Json.completes_none_some_iff.mp hentry
      exact ⟨skip_of_keyed_iff.mpr hwhole, .object hunder (word_eq_ok_iff.mp hnumber) hunder'
        (signed_eq_ok_iff.mp hsigned).2 (nameIn_iff.mpr ⟨x, hlist, hx⟩)⟩
    | array ts stop =>
      obtain ⟨rfl, slot, entry, rest, rfl, hslot, hsigned, hlist⟩ := registration_row_iff.mp h
      obtain ⟨hskip, hstates⟩ := signed_eq_ok_iff.mp hsigned
      refine ⟨skip_of_row_iff.mpr ?_, .row hslot hstates hlist⟩
      exact List.forall_mem_cons.mpr ⟨skip_of_isWord hslot,
        List.forall_mem_cons.mpr ⟨hskip, skip_of_nameIn hlist⟩⟩
    | _ => exact absurd h Json.refuse_ne_ok
  · rintro ⟨hskip, hstates⟩
    cases hstates with
    | object hunder hnumber hunder' hstates hlist =>
      have hwhole := skip_of_keyed_iff.mp hskip
      have hsigned := signed_eq_ok_iff.mpr ⟨Json.skip_of_mem_under hwhole hunder', hstates⟩
      obtain ⟨x, hcompletes, hx⟩ := nameIn_iff.mp hlist
      have hslot : Completes (word 2) none _ (some _) :=
        Json.completes_none_some_iff.mpr ⟨_, hunder, word_eq_ok_iff.mpr hnumber⟩
      exact registration_object_iff.mpr ⟨rfl, x, hx, fields_registration_iff.mpr ⟨_, rfl, hslot,
        Json.completes_none_some_iff.mpr ⟨_, hunder', hsigned⟩, hcompletes, hwhole⟩⟩
    | row hnumber hstates hlist =>
      have hentry := skip_of_row_iff.mp hskip _ (List.mem_cons_of_mem _ List.mem_cons_self)
      exact registration_row_iff.mpr ⟨rfl, _, _, _, rfl, hnumber,
        signed_eq_ok_iff.mpr ⟨hentry, hstates⟩, hlist⟩

/-! ### Responses -/

theorem registrations_eq_ok_iff {rs : List Registration} : registrations t = .ok rs ↔
    t.skip = none ∧ ∃ ts, t = .array ts none ∧ List.Forall₂ IsRegistration ts rs := by
  unfold registrations
  rw [Json.list_eq_ok_iff]
  simp only [registration_eq_ok_iff, List.forall₂_and_left]
  constructor
  · rintro ⟨ts, rfl, hwhole, hall⟩
    exact ⟨skip_of_row_iff.mpr hwhole, ts, rfl, hall⟩
  · rintro ⟨hwhole, ts, rfl, hall⟩
    exact ⟨ts, rfl, skip_of_row_iff.mp hwhole, hall⟩

/-- **A response is read just if it is an array of registrations.** -/
theorem parse_eq_ok_iff {b : Bytes} {rs : List Registration} : parse b = .ok rs ↔
    ∃ ts, Json.Spells (.item (.array ts none)) b ∧ List.Forall₂ IsRegistration ts rs := by
  unfold parse
  rw [Json.read_eq_ok_iff fun h => (registrations_eq_ok_iff.mp h).1]
  simp only [registrations_eq_ok_iff]
  constructor
  · rintro ⟨t, spelled, -, ts, rfl, hall⟩
    exact ⟨ts, spelled, hall⟩
  · rintro ⟨ts, spelled, hall⟩
    exact ⟨_, spelled, Json.skip_of_spells spelled, ts, rfl, hall⟩

end Registration

end ProposerBook
