/-
Why an address is blocked.

Every blocked address has a reason, because some entry blocks it.  But the reason is looked for by
the wallet alone: it is that of the first entry whose wallet is the address, whatever its kind.  So
an entry that blocks nothing can give the reason, if it stands before the one that blocks, and the
reason of the blocking entry is told just if it is also that of the first entry with the wallet.

An entry without an address, or with one that an earlier entry has, is never the first with its
wallet.  If it blocks nothing either, it may be there or not: every reason and every check is the
same.
-/
import ProposerBook.Proofs.Screening.Blacklist
import ProposerBook.Proofs.Screening.Decision

namespace ProposerBook

namespace Blacklist

/-! ### The first entry with a wallet -/

/-- Of the entries `e` is the first one with the property. -/
def First (P : Entry → Prop) (es : List Entry) (e : Entry) : Prop :=
  ∃ before after, es = before ++ e :: after ∧ P e ∧ ∀ x ∈ before, ¬P x

section Entries

variable {es : List Entry} {e : Entry} {a : Address}

theorem hasWallet_iff : (e.address? == some a) = true ↔ Address.Spells e.wallet a := by
  rw [beq_iff_eq, address?_eq_some_iff]

theorem find?_wallet_eq_some_iff : (es.find? fun e => e.address? == some a) = some e ↔
    First (fun e => Address.Spells e.wallet a) es e := by
  rw [List.find?_eq_some_iff_append, hasWallet_iff]
  unfold First
  simp only [Bool.not_eq_true', ← Bool.not_eq_true, hasWallet_iff]
  constructor
  · rintro ⟨he, before, after, hes, hbefore⟩
    exact ⟨before, after, hes, he, hbefore⟩
  · rintro ⟨before, after, hes, he, hbefore⟩
    exact ⟨he, before, after, hes, hbefore⟩

theorem First.unique {x : Entry} (he : First (fun e => Address.Spells e.wallet a) es e)
    (hx : First (fun e => Address.Spells e.wallet a) es x) : x = e := by
  rw [← find?_wallet_eq_some_iff] at he hx
  rw [he, Option.some.injEq] at hx
  exact hx.symm

theorem First.mem {P : Entry → Prop} (h : First P es e) : e ∈ es ∧ P e := by
  obtain ⟨before, after, rfl, he, -⟩ := h
  exact ⟨List.mem_append_right _ List.mem_cons_self, he⟩

theorem First.congr {P Q : Entry → Prop} (h : ∀ e ∈ es, P e ↔ Q e) :
    First P es e ↔ First Q es e := by
  unfold First
  constructor
  · rintro ⟨before, after, rfl, he, hbefore⟩
    refine ⟨before, after, rfl, (h e (by simp)).mp he, ?_⟩
    intro x hx hqx
    exact hbefore x hx ((h x (by simp [hx])).mpr hqx)
  · rintro ⟨before, after, rfl, he, hbefore⟩
    refine ⟨before, after, rfl, (h e (by simp)).mpr he, ?_⟩
    intro x hx hpx
    exact hbefore x hx ((h x (by simp [hx])).mp hpx)

/-- Where some entry has the wallet, one is the first. -/
theorem exists_first (he : e ∈ es) (hwallet : Address.Spells e.wallet a) :
    ∃ x, First (fun e => Address.Spells e.wallet a) es x := by
  cases hfind : es.find? fun e => e.address? == some a with
  | some x => exact ⟨x, find?_wallet_eq_some_iff.mp hfind⟩
  | none => exact absurd (hasWallet_iff.mpr hwallet) (List.find?_eq_none.mp hfind e he)

/-- **The reason of a blocked address is that of the first entry with its wallet.** -/
theorem reason?_eq_some_iff {l : Blacklist} {reason : String} : l.reason? a = some reason ↔
    l.contains a = true ∧
      ∃ e, First (fun e => Address.Spells e.wallet a) l.entries e ∧ e.reason = reason := by
  unfold reason?
  by_cases hblocked : l.contains a = true
  · rw [if_pos hblocked, Option.map_eq_some_iff]
    simp only [find?_wallet_eq_some_iff, hblocked, true_and]
  · simp [hblocked]

theorem reason?_ofEntries : (ofEntries es).reason? a =
    if (ofEntries es).contains a then
      (es.find? fun e => e.address? == some a).map Entry.reason
    else none := rfl

/-- Every address that entries block has a reason. -/
theorem exists_reason_iff :
    (∃ reason, (ofEntries es).reason? a = some reason) ↔ (ofEntries es).contains a = true := by
  constructor
  · rintro ⟨reason, hreason⟩
    exact (reason?_eq_some_iff.mp hreason).1
  · intro hblocked
    obtain ⟨e, he, -, hwallet⟩ := contains_ofEntries_iff.mp hblocked
    obtain ⟨x, hx⟩ := exists_first he hwallet
    exact ⟨x.reason, reason?_eq_some_iff.mpr ⟨hblocked, x, hx, rfl⟩⟩

/-- The reason of the entry that blocks is told just if the first entry with the wallet has it. -/
theorem reason?_of_blocking (h : First (fun e => e.Blocks a) es e) :
    (ofEntries es).reason? a = some e.reason ↔
      ∀ x, First (fun e => Address.Spells e.wallet a) es x → x.reason = e.reason := by
  obtain ⟨he, hblocks⟩ := h.mem
  have hblocked : (ofEntries es).contains a = true :=
    contains_ofEntries_iff.mpr ⟨e, he, hblocks⟩
  rw [reason?_eq_some_iff]
  constructor
  · rintro ⟨-, y, hy, hreason⟩ x hx
    rw [hy.unique hx, hreason]
  · intro hsame
    obtain ⟨x, hx⟩ := exists_first he hblocks.2
    exact ⟨hblocked, x, hx, hsame x hx⟩

/-! ### Entries that do not matter -/

/-- An entry that blocks nothing, and whose address, if it has one, an earlier entry has. -/
structure Idle (before : List Entry) (x : Entry) : Prop where
  blocks : ∀ a, ¬x.Blocks a
  wallet : ∀ a, Address.Spells x.wallet a → ∃ e ∈ before, Address.Spells e.wallet a

variable {before after : List Entry} {x : Entry}

theorem contains_of_idle (idle : Idle before x) (a : Address) :
    (ofEntries (before ++ x :: after)).contains a = (ofEntries (before ++ after)).contains a := by
  rw [Bool.eq_iff_iff, contains_ofEntries_iff, contains_ofEntries_iff]
  constructor
  · rintro ⟨e, he, hblocks⟩
    refine ⟨e, ?_, hblocks⟩
    rcases List.mem_append.mp he with he | he
    · exact List.mem_append_left _ he
    · rcases List.mem_cons.mp he with rfl | he
      · exact absurd hblocks (idle.blocks a)
      · exact List.mem_append_right _ he
  · rintro ⟨e, he, hblocks⟩
    refine ⟨e, ?_, hblocks⟩
    rcases List.mem_append.mp he with he | he
    · exact List.mem_append_left _ he
    · exact List.mem_append_right _ (List.mem_cons_of_mem _ he)

theorem reason?_of_idle (idle : Idle before x) (a : Address) :
    (ofEntries (before ++ x :: after)).reason? a = (ofEntries (before ++ after)).reason? a := by
  have hfind : ((before ++ x :: after).find? fun e => e.address? == some a) =
      (before ++ after).find? fun e => e.address? == some a := by
    rw [List.find?_append, List.find?_append]
    cases hbefore : before.find? fun e => e.address? == some a with
    | some e => rw [Option.some_or, Option.some_or]
    | none =>
      have hno : ¬(x.address? == some a) = true := by
        intro hx
        obtain ⟨e, he, hwallet⟩ := idle.wallet a (hasWallet_iff.mp hx)
        exact List.find?_eq_none.mp hbefore e he (hasWallet_iff.mpr hwallet)
      rw [Option.none_or, Option.none_or]
      exact List.find?_cons_of_neg hno
  rw [reason?_ofEntries, reason?_ofEntries, contains_of_idle idle a, hfind]

end Entries

end Blacklist

/-! ### What a check tells -/

namespace Registry

/-- A check asks the blacklist who is blocked, and why. -/
theorem check_congr {r : Registry} {b c : Blacklist} (contains : ∀ a, b.contains a = c.contains a)
    (reason : ∀ a, b.reason? a = c.reason? a) (name : String) (as : List Address) :
    (r.withBlacklist b).check name as = (r.withBlacklist c).check name as := by
  have hcontains : b.contains = c.contains := funext contains
  unfold check resolve finding? withBlacklist
  simp only [hcontains, reason]

/-- A reason on record is that of the blacklist, where all who are blocked have one. -/
theorem reason?_of_finding {r : Registry} {b : Blacklist}
    (told : ∀ a, b.contains a = true → ∃ reason, b.reason? a = some reason) {name : String}
    {as : List Address} {a : Address} {reason : String}
    (h : Finding.blacklisted a reason ∈ ((r.withBlacklist b).check name as).findings) :
    a ∈ as ∧ b.contains a = true ∧ b.reason? a = some reason := by
  rw [check_eq] at h
  rcases List.mem_append.mp h with hnote | hfinding
  · split at hnote
    · simp at hnote
    · simp at hnote
  rw [Option.mem_toList] at hfinding
  unfold finding? withBlacklist at hfinding
  simp only [Option.or_eq_some_iff, Option.bind_eq_bind, Option.bind_eq_some_iff,
    Option.pure_def, Option.some.injEq] at hfinding
  rcases hfinding with ⟨s, -, x, -, hlisted⟩ | ⟨-, x, hfind, htold⟩
  · cases hlisted
  · obtain ⟨rfl, hreason⟩ := Finding.blacklisted.inj htold
    have hblocked : b.contains x = true := List.find?_some hfind
    obtain ⟨why, hwhy⟩ := told x hblocked
    rw [hwhy, Option.getD_some] at hreason
    exact ⟨List.mem_of_find?_eq_some hfind, hblocked, by rw [hwhy, hreason]⟩

/-- Against an empty list a blocked address goes on record with its reason. -/
theorem findings_of_blocked {r : Registry} {b : Blacklist} {name : String} {a : Address}
    {reason : String} (named : name ≠ "" ∧ r.lists.contains name = true)
    (empty : r.lists.get? name = some {}) (blocked : b.contains a = true)
    (told : b.reason? a = some reason) :
    ((r.withBlacklist b).check name [a]).findings = [.blacklisted a reason] := by
  have hscreened : (r.withBlacklist b).screened name = name := if_pos named
  have hknown : ¬(r.withBlacklist b).Unknown name := by
    intro hno
    cases named.2.symm.trans hno.2
  have hlist : (r.withBlacklist b).lists.get? name = some {} := empty
  have hclean : [a].find? ({} : AddressSet).contains = none := rfl
  have hhit : [a].find? (r.withBlacklist b).blacklist.blocked.contains = some a :=
    List.find?_cons_of_pos blocked
  have hreason : (r.withBlacklist b).blacklist.reason? a = some reason := told
  rw [check_eq, hscreened, if_neg hknown, finding?_eq [a] hlist, hclean, hhit, Option.map_none,
    Option.none_or, Option.map_some, hreason]
  rfl

end Registry

/-! ### The main result -/

namespace Blacklist

/-- **Reasons go by the wallet.**  In a blacklist that has been read, just the blocked addresses
have a reason, and a check puts this reason on record.  It is the reason of the first entry with the
wallet, of whatever kind.  The first entry that blocks the address gives it just if the first with
the wallet has the same, so always where no account of another kind has an address as its wallet.
An entry that blocks nothing, and has no address or one that an earlier entry has, may be added or
deleted: all reasons and all checks stay. -/
theorem reasons_go_by_wallet {s : String} {l : Blacklist} (h : parse s = .ok l) :
    (∀ a, (∃ reason, l.reason? a = some reason) ↔ l.contains a = true) ∧
    (∀ a reason, l.reason? a = some reason ↔ l.contains a = true ∧
      ∃ e, First (fun e => Address.Spells e.wallet a) l.entries e ∧ e.reason = reason) ∧
    (∀ a e, First (fun e => e.Blocks a) l.entries e → (l.reason? a = some e.reason ↔
      ∀ x, First (fun x => Address.Spells x.wallet a) l.entries x → x.reason = e.reason)) ∧
    ((∀ e ∈ l.entries, ∀ a, Address.Spells e.wallet a → e.Blocks a) →
      ∀ a reason, l.reason? a = some reason ↔
        ∃ e, First (fun e => e.Blocks a) l.entries e ∧ e.reason = reason) ∧
    (∀ (r : Registry) name as a reason,
      Registry.Finding.blacklisted a reason ∈ ((r.withBlacklist l).check name as).findings →
      a ∈ as ∧ l.contains a = true ∧ l.reason? a = some reason) ∧
    ∀ t m before x after, parse t = .ok m → l.entries = before ++ x :: after →
      m.entries = before ++ after → Idle before x →
      (∀ a, l.contains a = m.contains a ∧ l.reason? a = m.reason? a) ∧
      ∀ (r : Registry) name as,
        (r.withBlacklist l).check name as = (r.withBlacklist m).check name as := by
  obtain ⟨es, -, rfl⟩ := parse_eq_ok_iff.mp h
  refine ⟨fun a => exists_reason_iff, fun a reason => reason?_eq_some_iff,
    fun a e => reason?_of_blocking, ?_, ?_, ?_⟩
  · intro own a reason
    have hsame : ∀ e, First (fun e => Address.Spells e.wallet a) es e ↔
        First (fun e => e.Blocks a) es e := by
      intro e
      exact First.congr fun e he => ⟨own e he a, fun hblocks => hblocks.2⟩
    rw [reason?_eq_some_iff, contains_ofEntries_iff]
    show (_ ∧ ∃ e, First _ es e ∧ _) ↔ _
    simp only [hsame]
    constructor
    · rintro ⟨-, hfirst⟩
      exact hfirst
    · rintro ⟨e, hfirst, hreason⟩
      exact ⟨⟨e, hfirst.mem⟩, e, hfirst, hreason⟩
  · intro r name as a reason
    exact Registry.reason?_of_finding fun a ha => exists_reason_iff.mpr ha
  · intro t m before x after hm hl hentries idle
    obtain ⟨fs, -, rfl⟩ := parse_eq_ok_iff.mp hm
    have hes : es = before ++ x :: after := hl
    have hfs : fs = before ++ after := hentries
    rw [hes, hfs]
    refine ⟨fun a => ⟨contains_of_idle idle a, reason?_of_idle idle a⟩, ?_⟩
    intro r name as
    exact Registry.check_congr (contains_of_idle idle) (reason?_of_idle idle) name as

/-- An account of another kind that stands behind the entry that blocks, and a wallet that is no
address. -/
theorem reasons_go_by_wallet_behind :
    let a : Address := .repeated 0x22
    let ours : Entry := ⟨"Evm", plainWallet, "ours"⟩
    let theirs : Entry := ⟨"solana", plainWallet, "theirs"⟩
    let short : Entry := ⟨"evm", "0x12", "short"⟩
    let r := (Registry.fresh default).update default (Table.ofList [("strict", {})])
    ∃ l m, parse (textOf [ours, theirs, short]) = .ok l ∧ parse (textOf [ours, short]) = .ok m ∧
      l.reason? a = some "ours" ∧ m.reason? a = some "ours" ∧
      Registry.Finding.blacklisted a "ours" ∈ ((r.withBlacklist l).check "strict" [a]).findings ∧
      (∀ b, l.contains b = m.contains b ∧ l.reason? b = m.reason? b) ∧
      ∀ (r : Registry) name as,
        (r.withBlacklist l).check name as = (r.withBlacklist m).check name as := by
  intro a ours theirs short r
  have hblocks : ours.Blocks a := ⟨by decide, spells_plainWallet⟩
  have hshort : ∀ b, ¬Address.Spells short.wallet b :=
    fun b => Address.not_spells_of_short (by decide)
  have hl : parse (textOf [ours, theirs, short]) = .ok (ofEntries [ours, theirs, short]) :=
    parse_eq_ok_iff.mpr ⟨_, written_textOf (by decide +kernel), rfl⟩
  have hm : parse (textOf [ours, short]) = .ok (ofEntries [ours, short]) :=
    parse_eq_ok_iff.mpr ⟨_, written_textOf (by decide +kernel), rfl⟩
  obtain ⟨-, -, hlfirst, -, -, hldeleted⟩ := reasons_go_by_wallet hl
  obtain ⟨-, -, -, hmown, -, -⟩ := reasons_go_by_wallet hm
  have idle : Idle [ours] theirs := by
    refine ⟨fun b hb => absurd hb.1 (by decide), ?_⟩
    intro b hb
    exact ⟨ours, by simp, hb⟩
  have hltold : (ofEntries [ours, theirs, short]).reason? a = some "ours" := by
    refine (hlfirst a ours ⟨[], [theirs, short], rfl, hblocks, nofun⟩).mpr ?_
    intro x hx
    have hours : First (fun x => Address.Spells x.wallet a) [ours, theirs, short] ours :=
      ⟨[], [theirs, short], rfl, spells_plainWallet, nofun⟩
    rw [hours.unique hx]
  have hmtold : (ofEntries [ours, short]).reason? a = some "ours" := by
    refine (hmown ?_ a "ours").mpr ⟨ours, ⟨[], [short], rfl, hblocks, nofun⟩, rfl⟩
    intro e he b hb
    rcases List.mem_cons.mp he with rfl | he
    · exact ⟨by decide, hb⟩
    · rw [List.mem_singleton.mp he] at hb
      exact absurd hb (hshort b)
  obtain ⟨hsame, hchecks⟩ := hldeleted _ _ [ours] theirs [short] hm rfl rfl idle
  refine ⟨_, _, hl, hm, hltold, hmtold, ?_, hsame, hchecks⟩
  have hlist : r.lists.get? "strict" = some {} := by decide
  have hnamed : "strict" ≠ "" ∧ r.lists.contains "strict" = true := by decide
  have hblocked : (ofEntries [ours, theirs, short]).contains a = true :=
    contains_ofEntries_iff.mpr ⟨ours, by simp, hblocks⟩
  rw [Registry.findings_of_blocked hnamed hlist hblocked hltold]
  exact List.mem_singleton.mpr rfl

/-- An account of another kind that stands first gives its reason for an address that it does not
block, to whoever asks and on record; without it the entry that blocks gives its own. -/
theorem foreign_reason_told :
    let a : Address := .repeated 0x22
    let theirs : Entry := ⟨"solana", plainWallet, "theirs"⟩
    let ours : Entry := ⟨"evm", plainWallet, "ours"⟩
    let r := (Registry.fresh default).update default (Table.ofList [("strict", {})])
    ∃ l m, parse (textOf [theirs, ours]) = .ok l ∧ parse (textOf [ours]) = .ok m ∧
      (∀ b, ¬theirs.Blocks b) ∧ l.contains a = true ∧ m.contains a = true ∧
      First (fun e => e.Blocks a) l.entries ours ∧ First (fun e => e.Blocks a) m.entries ours ∧
      l.reason? a = some "theirs" ∧ m.reason? a = some "ours" ∧
      ((r.withBlacklist l).check "strict" [a]).findings = [.blacklisted a "theirs"] ∧
      ((r.withBlacklist m).check "strict" [a]).findings = [.blacklisted a "ours"] := by
  intro a theirs ours r
  have hblocks : ours.Blocks a := ⟨by decide, spells_plainWallet⟩
  have hforeign : ∀ b, ¬theirs.Blocks b := fun b hb => absurd hb.1 (by decide)
  have hl : (ofEntries [theirs, ours]).contains a = true :=
    contains_ofEntries_iff.mpr ⟨ours, by simp, hblocks⟩
  have hm : (ofEntries [ours]).contains a = true :=
    contains_ofEntries_iff.mpr ⟨ours, by simp, hblocks⟩
  have hltold : (ofEntries [theirs, ours]).reason? a = some "theirs" :=
    reason?_eq_some_iff.mpr ⟨hl, theirs, ⟨[], [ours], rfl, spells_plainWallet, nofun⟩, rfl⟩
  have hmtold : (ofEntries [ours]).reason? a = some "ours" :=
    reason?_eq_some_iff.mpr ⟨hm, ours, ⟨[], [], rfl, spells_plainWallet, nofun⟩, rfl⟩
  have hlist : r.lists.get? "strict" = some {} := by decide
  have hnamed : "strict" ≠ "" ∧ r.lists.contains "strict" = true := by decide
  have hlread : parse (textOf [theirs, ours]) = .ok (ofEntries [theirs, ours]) :=
    parse_eq_ok_iff.mpr ⟨_, written_textOf (by decide +kernel), rfl⟩
  have hmread : parse (textOf [ours]) = .ok (ofEntries [ours]) :=
    parse_eq_ok_iff.mpr ⟨_, written_textOf (by decide +kernel), rfl⟩
  refine ⟨_, _, hlread, hmread, hforeign, hl, hm, ⟨[theirs], [], rfl, hblocks, ?_⟩,
    ⟨[], [], rfl, hblocks, nofun⟩, hltold, hmtold,
    Registry.findings_of_blocked hnamed hlist hl hltold,
    Registry.findings_of_blocked hnamed hlist hm hmtold⟩
  exact List.forall_mem_singleton.mpr (hforeign a)

end Blacklist

end ProposerBook
