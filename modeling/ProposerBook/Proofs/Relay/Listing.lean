/-
What is shown to who asks for the lists over HTTP.

What is shown is put together from two tables: the names come from that of the lists, and under
each name a record is looked up in another one.  A name without a record would be passed over in
silence.  There is none, for lists and records come in together, and a name that is told stays
with its record whatever else is done to the registry between the two looks.  So the records are
those of the names, one each and in their order, and each tells of the list that its name has.

As with a slot, what is shown is told as the client gets it: as the tree that the text of the body
is scanned as.
-/
import ProposerBook.Proofs.Json.Write
import ProposerBook.Proofs.Relay.Registry
import ProposerBook.Relay.Inspection

namespace ProposerBook

namespace Registry

/-- **Every name has its record.** -/
theorem Arises.allRecords_eq {r : Registry} (h : r.Arises) :
    r.allRecords = r.lists.entries.map fun e => .of e.1 e.2 (r.since e.1) := by
  have hrecord : ∀ e ∈ r.lists.entries,
      r.record? e.1 = some (.of e.1 e.2 (r.since e.1)) := by
    intro e he
    rw [h.record?_eq, Table.get?_eq_some_iff.mpr he]
    rfl
  have hmap : ∀ es : List (String × AddressSet),
      (∀ e ∈ es, r.record? e.1 = some (.of e.1 e.2 (r.since e.1))) →
      (es.map Prod.fst).filterMap r.record? = es.map fun e => .of e.1 e.2 (r.since e.1) := by
    intro es hes
    induction es with
    | nil => rfl
    | cons e es ih =>
      obtain ⟨he, hmore⟩ := List.forall_mem_cons.mp hes
      rw [List.map_cons, List.filterMap_cons_some he, ih hmore, List.map_cons]
  exact hmap r.lists.entries hrecord

end Registry

namespace Inspection

open Json (Tree Value)

/-! ### What is shown -/

/-- What the client gets: a status, and a text that is scanned as this tree. -/
def Response.Sends (x : Response) (status : Nat) (t : Tree) : Prop :=
  ∃ v, x = { status, body := some v } ∧ Json.scan v.write = ⟨t, false⟩

/-- A tree that presents what is known about a list: its name, how many addresses are on it, its
checksum, and when it came in. -/
def PresentsList (name : String) (list : AddressSet) (updated : Timestamp) (t : Tree) : Prop :=
  ∃ digits, Json.Number.ofDigits digits = list.size ∧
    t = .object [(.ok "name", .string (.ok name)),
      (.ok "record_count", .number { negative := false, whole := digits }),
      (.ok "checksum", .string (.ok list.checksum)),
      (.ok "updated_at", .string (.ok updated.toText))] none

/-- A request for the lists. -/
structure AsksLists (q : Request) : Prop where
  method : q.method = "GET"
  path : route? (path q.target) = some .lists

theorem presents_recordValue (name : String) (list : AddressSet) (updated : Timestamp) :
    PresentsList name list updated (.ofValue (recordValue (.of name list updated))) :=
  ⟨Json.natDigits list.size, Json.ofDigits_natDigits list.size, rfl⟩

theorem sound_recordValues (ms : List ListRecord) :
    (Value.array (ms.map recordValue)).Sound := by
  show Json.ItemsSound _
  induction ms with
  | nil => trivial
  | cons m ms ih => exact ⟨⟨trivial, Json.sound_nat m.count, trivial, trivial, trivial⟩, ih⟩

theorem answer_of_asksLists {q : Request} (asks : AsksLists q) (r : Relay) :
    (answer r q).1.response =
      { status := 200, body := some (.array (r.registry.allRecords.map recordValue)) } := by
  unfold answer
  rw [asks.path, asks.method]
  rfl

/-- One record is shown for each name, in the order of the names. -/
theorem shows_allRecords {r : Registry} (h : r.Arises) :
    List.Forall₂ (fun n t => ∃ list, r.lists.get? n = some list ∧
      PresentsList n list (r.since n) t) r.names (Json.treesOf (r.allRecords.map recordValue)) := by
  have hall : ∀ es : List (String × AddressSet), (∀ e ∈ es, r.lists.get? e.1 = some e.2) →
      List.Forall₂ (fun n t => ∃ list, r.lists.get? n = some list ∧
        PresentsList n list (r.since n) t) (es.map Prod.fst)
        (Json.treesOf ((es.map fun e => .of e.1 e.2 (r.since e.1)).map recordValue)) := by
    intro es hes
    induction es with
    | nil => exact .nil
    | cons e es ih =>
      obtain ⟨he, hmore⟩ := List.forall_mem_cons.mp hes
      exact .cons ⟨e.2, he, presents_recordValue e.1 e.2 _⟩ (ih hmore)
  rw [h.allRecords_eq]
  exact hall r.lists.entries fun e he => Table.get?_eq_some_iff.mpr he

end Inspection

namespace Relay

/-! ### The main result -/

/--
**The lists are shown as they are.**  At any time of any run, whatever lists have come in and from
where, who asks for the lists gets a text that is scanned as one record for each name, in the order
of the bytes of the names.  Each has the name, the number of addresses and the checksum of the list
that the name has, and tells when it came in.  A name is told if and only if it has a list.
Whatever is done to the registry after the names are taken down, each of them has a list later on,
and the record looked up for it is that of the list that it has by then.
-/
theorem lists_shown {r : Relay} (h : r.registry.Arises) (es : List Event)
    {q : Inspection.Request} (asks : Inspection.AsksLists q) :
    let s := (opened r).run es
    let g := s.registry
    (∃ ts, (s.inspect q).1.response.Sends 200 (.array ts none) ∧
      List.Forall₂ (fun n t => ∃ list, g.lists.get? n = some list ∧
        Inspection.PresentsList n list (g.since n) t) g.names ts) ∧
    (∀ n, n ∈ g.names ↔ ∃ list, g.lists.get? n = some list) ∧
    g.names.Pairwise (fun m n => Bytes.ofString m < Bytes.ofString n) ∧
    ∀ n ∈ g.names, ∀ os, ∃ list, (g.after os).lists.get? n = some list ∧
      (g.after os).record? n = some (.of n list ((g.after os).since n)) := by
  intro s g
  have harises : g.Arises := arises_run (r := opened r) h es
  refine ⟨⟨_, ⟨_, Inspection.answer_of_asksLists asks s, ?_⟩, Inspection.shows_allRecords harises⟩,
    fun n => Registry.mem_names_iff, Registry.ascending_names g, ?_⟩
  · exact Json.scan_write (Inspection.sound_recordValues _)
  · intro n hn os
    have hstays : n ∈ (g.after os).names := Registry.names_after hn
    obtain ⟨list, hlist⟩ := Registry.mem_names_iff.mp hstays
    refine ⟨list, hlist, ?_⟩
    rw [(Registry.arises_after harises os).record?_eq, hlist]
    rfl

/-- Three lists are shown where one has come in without a name. -/
theorem lists_shown_nameless :
    let s := (opened nameless).run [.move 0, .move 0, .move 0]
    let q : Inspection.Request := { target := "/compliance/lists?all" }
    nameless.registry.Arises ∧ Inspection.AsksLists q ∧
      ∃ x y z, (s.inspect q).1.response.Sends 200 (.array [x, y, z] none) ∧
        Inspection.PresentsList "" (.ofList [Registry.listedAddress]) default x ∧
        Inspection.PresentsList "custom" (.ofList [Registry.listedAddress]) default y ∧
        Inspection.PresentsList Baseline.name (.ofList [Registry.blockedAddress]) default z := by
  intro s q
  have harises : nameless.registry.Arises := .fresh
  have hasks : Inspection.AsksLists q := ⟨rfl, by decide⟩
  have hnames : s.registry.names = ["", "custom", Baseline.name] := nameless_names
  have hempty : s.registry.lists.get? "" = some (.ofList [Registry.listedAddress]) := by
    decide +kernel
  have hcustom : s.registry.lists.get? "custom" = some (.ofList [Registry.listedAddress]) := by
    decide +kernel
  have hbaseline : s.registry.lists.get? Baseline.name =
      some (.ofList [Registry.blockedAddress]) := by
    decide +kernel
  obtain ⟨⟨ts, hsends, hshown⟩, -⟩ :=
    lists_shown harises [.move 0, .move 0, .move 0] hasks
  rw [show ((opened nameless).run [.move 0, .move 0, .move 0]).registry.names = _ from hnames]
    at hshown
  obtain _ | ⟨⟨list, hlist, hx⟩, _ | ⟨⟨list', hlist', hy⟩, _ | ⟨⟨list'', hlist'', hz⟩, _ | _⟩⟩⟩ :=
    hshown
  -- Nobody has to wait for the first sync, so all three have come in at once.
  have hsince : ∀ n ∈ ["", "custom", Baseline.name], s.registry.since n = default := by
    decide +kernel
  rw [Option.some.inj (hlist.symm.trans hempty), hsince "" (by decide)] at hx
  rw [Option.some.inj (hlist'.symm.trans hcustom), hsince "custom" (by decide)] at hy
  rw [Option.some.inj (hlist''.symm.trans hbaseline), hsince Baseline.name (by decide)] at hz
  exact ⟨harises, hasks, _, _, _, hsends, hx, hy, hz⟩

end Relay

end ProposerBook
