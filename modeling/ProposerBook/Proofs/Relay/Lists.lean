/-
How lists get into the registry.

A sync of the lists asks for the names that occur in the slot map when it begins, and asks
for the same names each time it tries again.  When the answer comes, all its lists go into
the registry, whether they were asked for or not: what comes is not compared with what was
asked.  So after a merge the registry has, under every name of the answer, what the answer
has, and under every other name what it had; a list that nobody asked for is left alone just
if the answer says nothing new about it.

`incoming?` tells which lists come in with an event, be it through a sync or through somebody
else who uses the registry, and `occur_held` what becomes of each name.
-/
import ProposerBook.Proofs.Relay.Cache
import ProposerBook.Proofs.Screening.Registry

namespace ProposerBook

/-! ### What is asked for -/

/-- The names of the lists that a task is after. -/
def Phase.names? : Phase → Option (List String)
  | .askingLists names .. | .pausingLists names .. => some names
  | _ => none

def Progress.names? : Progress → Option (List String)
  | .goesOn phase => phase.names?
  | .ends _ => none

namespace Relay

theorem beginLists_names {r : Relay} {t : Task} {names : List String}
    (h : (r.beginLists t).2.names? = some names) :
    names = SlotMap.listNames (r.beginLists t).1.cache.slots ∧ names ≠ [] := by
  obtain ⟨log, hlog⟩ := beginLists_eq r t
  rw [hlog] at h ⊢
  by_cases hnone : SlotMap.listNames r.cache.slots = []
  · rw [if_pos hnone] at h
    cases h
  · rw [if_neg hnone] at h ⊢
    have hnames : SlotMap.listNames r.cache.slots = names := Option.some.inj h
    rw [hnames] at hnone
    exact ⟨hnames.symm, hnone⟩

theorem endValidators_names {r : Relay} {t : Task} {o : Outcome} {names : List String}
    (h : (r.endValidators t o).2.names? = some names) :
    names = SlotMap.listNames (r.endValidators t o).1.cache.slots ∧ names ≠ [] := by
  obtain ⟨log, hlog⟩ := endValidators_eq r t o
  rw [hlog] at h ⊢
  split at h
  · rename_i hfollow
    rw [if_pos hfollow]
    exact beginLists_names h
  · cases h

/-- A task takes the names from the slot map when it turns to the lists, and keeps them. -/
theorem move_names {r : Relay} {t : Task} {names : List String}
    (h : (r.move t).2.names? = some names) :
    t.phase.names? = some names ∨
      (t.phase.names? = none ∧ names = SlotMap.listNames (r.move t).1.cache.slots ∧
        names ≠ []) := by
  have hidle : ∀ phase, t.phase = phase → phase.names? = none → t.phase.names? = none :=
    fun phase hphase hnone => hphase ▸ hnone
  have hturn := turn_move r t
  generalize r.move t = x at hturn h ⊢
  cases hturn with
  | refused waits => exact Or.inr ⟨hidle _ waits rfl, endValidators_names h⟩
  | begins => cases h
  | asksAgain => cases h
  | succeeds log rs asks => exact Or.inr ⟨hidle _ asks rfl, endValidators_names h⟩
  | fails log e asks => exact Or.inr ⟨hidle _ asks rfl, endValidators_names h⟩
  | pauses => cases h
  | beginsLists waits => exact Or.inr ⟨hidle _ waits rfl, beginLists_names h⟩
  | asksListsAgain pauses =>
    rw [pauses]
    exact Or.inl h
  | listsSucceed =>
    rw [endLists_ends] at h
    cases h
  | listsFail =>
    rw [endLists_ends] at h
    cases h
  | listsPause log e asks =>
    rw [asks]
    exact Or.inl h

theorem mem_remains_names {p : Progress} {t u : Task} (h : u ∈ p.remains t) :
    p.names? = u.phase.names? := by
  cases p with
  | goesOn phase =>
    rw [List.mem_singleton.mp h]
    rfl
  | ends o => cases h

/-- With `e` the task named `id` turns to the lists, and takes from the slot map which ones it
asks for. -/
def TurnsToLists (r : Relay) (e : Event) (id : Nat) (names : List String) : Prop :=
  (∃ t ∈ r.tasks, t.id = id ∧ t.phase.names? = none) ∧ e = .move id ∧
    names = SlotMap.listNames (r.occur e).cache.slots ∧ names ≠ []

/-- Who is after some lists now was so before, or has just turned to them. -/
theorem Sound.occur_names {r : Relay} (h : Sound r) {e : Event} {u : Task} {names : List String}
    (hu : u ∈ (r.occur e).tasks) (hnames : u.phase.names? = some names) :
    (∃ t ∈ r.tasks, t.id = u.id ∧ t.phase.names? = some names) ∨
      r.TurnsToLists e u.id names := by
  rcases h.mem_occur hu with ⟨hu, -⟩ | ⟨c, -, hbegun⟩ | ⟨before, t, after, rfl, hready, hu⟩
  · exact Or.inl ⟨u, hu, rfl, hnames⟩
  · rw [hbegun.waits] at hnames
    cases hnames
  · have hid := (mem_remains hu).2.1
    rw [← mem_remains_names hu] at hnames
    have ht := mem_of_ready hready
    rcases move_names hnames with hkept | ⟨hnone, hnow⟩
    · exact Or.inl ⟨t, ht, hid.symm, hkept⟩
    · rw [← cache_of_ready hready] at hnow
      exact Or.inr ⟨⟨t, ht, hid.symm, hnone⟩, congrArg _ hid.symm, hnow⟩

/-- Who is after some lists was so from the start, or has turned to them at some time. -/
theorem Sound.run_names {r : Relay} (h : Sound r) {es : List Event} {u : Task} {names : List String}
    (hu : u ∈ (r.run es).tasks) (hnames : u.phase.names? = some names) :
    (∃ t ∈ r.tasks, t.id = u.id ∧ t.phase.names? = some names) ∨
      ∃ ds e fs, es = ds ++ e :: fs ∧ (r.run ds).TurnsToLists e u.id names := by
  induction es generalizing r with
  | nil => exact Or.inl ⟨u, hu, rfl, hnames⟩
  | cons e es ih =>
    rcases ih (sound_occur h e) hu with ⟨t, ht, hid, htnames⟩ | ⟨ds, e', fs, rfl, hturns⟩
    · rcases h.occur_names ht htnames with ⟨v, hv, hvid, hvnames⟩ | hturns
      · exact Or.inl ⟨v, hv, hvid.trans hid, hvnames⟩
      · rw [hid] at hturns
        exact Or.inr ⟨[], e, es, rfl, hturns⟩
    · exact Or.inr ⟨e :: ds, e', fs, rfl, hturns⟩

/-- Of a book the slot map names no list by the empty name. -/
theorem ne_empty_of_listNames (r : Relay) (es : List Event) {name : String}
    (h : name ∈ SlotMap.listNames ((opened r).run es).cache.slots) : name ≠ "" := by
  rcases (sound_opened r).run_cache es with ⟨-, hcache⟩ | ⟨_, _, _, _, rs, -, -, -, hcache⟩
  · rw [hcache] at h
    cases h
  · rw [hcache] at h
    exact SlotMap.ne_empty_of_mem_listNames h

/-- **A request for lists names each list that some proposer named when the task turned to them,
once, and no other.** -/
theorem names_of_run {r : Relay} {es : List Event} {t : Task} {names : List String}
    (ht : t ∈ ((opened r).run es).tasks) (hnames : t.phase.names? = some names) :
    ∃ ds fs, es = ds ++ .move t.id :: fs ∧
      ((opened r).run ds).TurnsToLists (.move t.id) t.id names ∧ names.Nodup ∧
      ∀ n, n ∈ names ↔ ((opened r).run (ds ++ [.move t.id])).cache.slots.Names n := by
  rcases (sound_opened r).run_names ht hnames with ⟨u, hu, -, hunames⟩ | ⟨ds, e, fs, hes, hturns⟩
  · rw [List.mem_singleton.mp hu] at hunames
    cases hunames
  · have hturn := hturns
    obtain ⟨-, rfl, hlist, -⟩ := hturns
    have hslots : ((opened r).run (ds ++ [.move t.id])).cache.slots
        = (((opened r).run ds).occur (.move t.id)).cache.slots := by
      rw [run_append]
      rfl
    rw [← hslots] at hlist
    refine ⟨ds, fs, hes, hturn, hlist ▸ SlotMap.nodup_listNames _, ?_⟩
    intro n
    rw [hlist]
    refine ⟨fun hn => ⟨ne_empty_of_listNames r _ hn, SlotMap.mem_listNames.mp hn⟩, ?_⟩
    exact fun hn => SlotMap.mem_listNames.mpr hn.2

/-! ### What comes -/

/-- The lists that the next move of a task brings, if it brings any. -/
def merges? (r : Relay) (t : Task) : Option NamedLists :=
  match t.phase with
  | .askingLists names _ _ reply => (reply.resolve (r.remote.listsNamed names)).toOption
  | _ => none

theorem merges_of_askingLists {r : Relay} {t : Task} {names : List String} {due left : Nat}
    {reply : Reply NamedLists} (asks : t.phase = .askingLists names due left reply) :
    r.merges? t = (reply.resolve (r.remote.listsNamed names)).toOption := by
  unfold merges?
  rw [asks]

theorem merges_of_names {r : Relay} {t : Task} (h : t.phase.names? = none) :
    r.merges? t = none := by
  unfold merges?
  cases hphase : t.phase with
  | askingLists => rw [hphase] at h; cases h
  | _ => rfl

theorem beginLists_registry (r : Relay) (t : Task) :
    (r.beginLists t).1.registry = r.registry := by
  obtain ⟨remote, log, p, hbegins, -⟩ := beginLists_frame r t
  rw [hbegins]

theorem endValidators_registry (r : Relay) (t : Task) (o : Outcome) :
    (r.endValidators t o).1.registry = r.registry := by
  obtain ⟨remote, log, p, hends, -⟩ := endValidators_frame r t o
  rw [hends]

theorem endLists_registry (r : Relay) (t : Task) (o : Outcome) :
    (r.endLists t o).1.registry = r.registry := by
  obtain ⟨log, hends⟩ := endLists_eq r t o
  rw [hends]

/-- **A move leaves the registry alone unless it brings lists, and then it merges them all in.** -/
theorem move_registry (r : Relay) (t : Task) : (r.move t).1.registry =
    match r.merges? t with
    | none => r.registry
    | some lists => r.registry.update r.arrivals lists := by
  have hidle : ∀ phase, t.phase = phase → phase.names? = none → r.merges? t = none := by
    intro phase hphase hnames
    rw [← hphase] at hnames
    exact merges_of_names hnames
  have hturn := turn_move r t
  generalize r.move t = x at hturn ⊢
  cases hturn with
  | refused waits => rw [hidle _ waits rfl, endValidators_registry]
  | begins log waits => rw [hidle _ waits rfl]; rfl
  | asksAgain pauses => rw [hidle _ pauses rfl]; rfl
  | succeeds log rs asks => rw [hidle _ asks rfl, endValidators_registry]
  | fails log e asks => rw [hidle _ asks rfl, endValidators_registry]
  | pauses log e asks => rw [hidle _ asks rfl]
  | beginsLists waits => rw [hidle _ waits rfl, beginLists_registry]
  | asksListsAgain pauses =>
    unfold merges?
    rw [pauses]
    rfl
  | listsSucceed log lists asks answer =>
    rw [merges_of_askingLists asks, answer, endLists_registry]
    rfl
  | listsFail log e asks answer =>
    rw [merges_of_askingLists asks, answer, endLists_registry]
    rfl
  | listsPause log e asks answer =>
    rw [merges_of_askingLists asks, answer]
    rfl

/-- The lists that come in with an event: with a move that brings an answer, or through somebody
else who uses the registry. -/
def incoming? (r : Relay) : Event → Option NamedLists
  | .move id => (r.ready? id).bind fun x => r.merges? x.2.1
  | .registry o => o.merges?
  | _ => none

/-- When lists come in that do so with an event. -/
def incomingAt (r : Relay) : Event → Arrivals
  | .registry o => o.times
  | _ => r.arrivals

/-- The list that comes in under a name. -/
def inflow? (r : Relay) (e : Event) (name : String) : Option AddressSet :=
  (r.incoming? e).bind (·.get? name)

theorem serve_registry (r : Relay) (c : Call) : (r.serve c).registry = r.registry := by
  have hserved := served_serve r c
  generalize r.serve c = s at hserved ⊢
  cases hserved with
  | answers => rfl
  | hands => rfl
  | begins => rfl
  | drops id => rfl

/-- **Whatever happens, the names that come in get what comes with them, and all others stay.** -/
theorem occur_held (r : Relay) (e : Event) (n : String) :
    (r.occur e).registry.held n = match r.inflow? e n with
      | some list => Registry.entered n list (r.incomingAt e n)
      | none => r.registry.held n := by
  cases e with
  | call c =>
    show (if r.isOpening then r else r.serve c).registry.held n = r.registry.held n
    by_cases hopening : r.isOpening = true
    · rw [if_pos hopening]
    · rw [if_neg hopening, serve_registry]
  | move id =>
    unfold inflow? incoming? occur
    simp only
    split
    · rename_i hready
      rw [hready]
      rfl
    · rename_i before t after hready
      have hmoved : (r.moved before t after).registry = (r.move t).1.registry := rfl
      rw [hready, Option.bind_some, hmoved, move_registry]
      cases r.merges? t with
      | none => rfl
      | some lists => exact r.registry.held_update r.arrivals lists n
  | registry o => exact r.registry.held_perform o n
  | pass ms => rfl
  | answers remote => rfl
  | register slot p => rfl
  | unregister slot => rfl

/-! ### The main result -/

theorem Sound.occur_registry {r : Relay} (h : Sound r) {t : Task} (ht : t ∈ r.tasks)
    (due : t.phase.due ≤ r.now) : (r.occur (.move t.id)).registry =
      match r.merges? t with
      | none => r.registry
      | some lists => r.registry.update r.arrivals lists := by
  obtain ⟨before, after, htasks⟩ := List.append_of_mem ht
  rw [h.occur_move htasks due]
  exact move_registry r t

/--
**What the other side answers goes into the registry, asked for or not.**  A task that asks for
lists has their names from the slot map, as it was when the task turned to them.  A failure
leaves the registry as it is.  A good answer leaves the blacklist alone, puts each of its lists
under its name, as one that has come in now, and leaves all other names alone; so the names that
were not asked for keep the lists they had just if the answer has no other lists under them.
-/
theorem lists_merged_as_they_come (r : Relay) (es : List Event) :
    let s := (opened r).run es
    ∀ t ∈ s.tasks, ∀ names due left reply, t.phase = .askingLists names due left reply →
      due ≤ s.now →
      let after := (s.occur (.move t.id)).registry
      (∃ ds fs, es = ds ++ .move t.id :: fs ∧
        ((opened r).run ds).TurnsToLists (.move t.id) t.id names ∧ names.Nodup ∧
        ∀ n, n ∈ names ↔ ((opened r).run (ds ++ [.move t.id])).cache.slots.Names n) ∧
      (∀ e, reply.resolve (s.remote.listsNamed names) = .error e → after = s.registry) ∧
      ∀ lists, reply.resolve (s.remote.listsNamed names) = .ok lists →
        after.blacklist = s.registry.blacklist ∧
        (∀ n, after.held n = match lists.get? n with
          | some list => Registry.entered n list (s.arrivals n)
          | none => s.registry.held n) ∧
        ((∀ n, n ∉ names → after.held n = s.registry.held n) ↔
          ∀ n list, n ∉ names → lists.get? n = some list →
            s.registry.held n = Registry.entered n list (s.arrivals n)) ∧
        ((∀ n, n ∉ names → after.lists.get? n = s.registry.lists.get? n) ↔
          ∀ n list, n ∉ names → lists.get? n = some list →
            s.registry.lists.get? n = some list) := by
  intro s t ht names due left reply asks hdue after
  have hnames : t.phase.names? = some names := by
    rw [asks]
    rfl
  have hsound : Sound s := Reachable.sound ⟨r, es, rfl⟩
  have hafter : after = match s.merges? t with
      | none => s.registry
      | some lists => s.registry.update s.arrivals lists :=
    hsound.occur_registry ht (by rw [asks]; exact hdue)
  rw [merges_of_askingLists asks] at hafter
  refine ⟨names_of_run ht hnames, ?_, ?_⟩
  · intro e hanswer
    rw [hanswer] at hafter
    exact hafter
  · intro lists hanswer
    rw [hanswer] at hafter
    have hupdate : after = s.registry.update s.arrivals lists := hafter
    have hheld : ∀ n, after.held n = match lists.get? n with
        | some list => Registry.entered n list (s.arrivals n)
        | none => s.registry.held n := by
      intro n
      rw [hupdate]
      exact s.registry.held_update s.arrivals lists n
    refine ⟨?_, hheld, ⟨?_, ?_⟩, ⟨?_, ?_⟩⟩
    · rw [hupdate]
      exact s.registry.blacklist_update s.arrivals lists
    · intro hstays n list hno hget
      have hentered := hheld n
      rw [hget] at hentered
      rw [← hstays n hno]
      exact hentered
    · intro hnothing n hno
      rw [hheld n]
      cases hget : lists.get? n with
      | none => rfl
      | some list => exact (hnothing n list hno hget).symm
    · intro hstays n list hno hget
      have hlists := Registry.lists_of_laid_over (hheld n)
      rw [← hstays n hno, hlists, hget]
      rfl
    · intro hnothing n hno
      rw [Registry.lists_of_laid_over (hheld n)]
      cases hget : lists.get? n with
      | none => rfl
      | some list => exact (hnothing n list hno hget).symm

/-- A new book whose other side has one proposer, who names the list `"custom"`, and answers
requests for lists by this plan. -/
def serving (listPlan : List (Planned NamedLists)) : Relay :=
  { settings := { endpoint := { scheme := [], authority := none, path := .plain [] }
                  complianceLists := true }
    remote := {
      validators := [{
        slot := 7
        entry := { message := { feeRecipient := "0x0101010101010101010101010101010101010101"
                                gasLimit := 0, timestamp := 0, pubkey := "" }
                   signature := "" }
        complianceList := some "custom" }]
      listPlan } }

/-- It answers with one list more than it was asked for: an empty one by the name of the
baseline. -/
def overanswering : Relay :=
  serving [⟨0, .answer (.ok (Table.ofList [("custom", {}), (Baseline.name, {})]))⟩]

/-- The task of the first sync, as it waits for the lists. -/
def overanswered : Task :=
  { id := 0, purpose := .startup, slot := 0, retries := 3
    phase := .askingLists ["custom"] 0 3
      (.answer (.ok (Table.ofList [("custom", {}), (Baseline.name, {})]))) }

theorem overanswering_tasks :
    ((opened overanswering).run [.move 0, .move 0]).tasks = [overanswered] := rfl

/-- Proposers name one list, and two come in. -/
theorem lists_merged_as_they_come_overanswering :
    let s := (opened overanswering).run [.move 0, .move 0]
    (∃ ds, ∀ n, n ∈ ["custom"] ↔ ((opened overanswering).run ds).cache.slots.Names n) ∧
      (s.occur (.move 0)).registry.held "custom"
        = Registry.entered "custom" {} (s.arrivals "custom") ∧
      (s.occur (.move 0)).registry.held Baseline.name
        = Registry.entered Baseline.name {} (s.arrivals Baseline.name) := by
  intro s
  have ht : overanswered ∈ s.tasks := by
    rw [overanswering_tasks]
    exact List.mem_cons_self
  obtain ⟨⟨ds, fs, -, -, -, hnames⟩, -, hok⟩ := lists_merged_as_they_come overanswering
    [.move 0, .move 0] overanswered ht _ _ _ _ rfl (Nat.zero_le _)
  obtain ⟨-, hheld, -⟩ := hok _ rfl
  have hcustom := hheld "custom"
  have hbaseline := hheld Baseline.name
  rw [show (Table.ofList [("custom", ({} : AddressSet)), (Baseline.name, {})]).get? "custom"
    = some {} by decide] at hcustom
  rw [show (Table.ofList [("custom", ({} : AddressSet)), (Baseline.name, {})]).get? Baseline.name
    = some {} by decide] at hbaseline
  exact ⟨⟨_, hnames⟩, hcustom, hbaseline⟩

/-- A list that nobody asked for may be replaced, the baseline among others. -/
theorem unasked_list_replaced : ¬∀ (r : Relay) (es : List Event),
    let s := (opened r).run es
    ∀ t ∈ s.tasks, ∀ names due left reply, t.phase = .askingLists names due left reply →
      due ≤ s.now → ∀ n, n ∉ names →
        (s.occur (.move t.id)).registry.lists.get? n = s.registry.lists.get? n := by
  intro hall
  have ht : overanswered ∈ ((opened overanswering).run [.move 0, .move 0]).tasks := by
    rw [overanswering_tasks]
    exact List.mem_cons_self
  have hno : Baseline.name ∉ ["custom"] := by decide
  have hstays := hall overanswering [.move 0, .move 0] overanswered ht _ _ _ _ rfl
    (Nat.zero_le _) Baseline.name hno
  have hbefore : ((opened overanswering).run [.move 0, .move 0]).registry.lists.get? Baseline.name
      = some Baseline.addresses :=
    Registry.lists_of_held (Registry.held_upsert_self _ _ Baseline.name Baseline.addresses)
  have hafter : ((opened overanswering).run [.move 0, .move 0, .move 0]).registry.lists.get?
      Baseline.name = some {} := by decide +kernel
  have hsame : (some {} : Option AddressSet) = some Baseline.addresses :=
    hafter.symm.trans (hstays.trans hbefore)
  exact Baseline.addresses_ne_empty (Option.some.inj hsame).symm

end Relay

end ProposerBook
