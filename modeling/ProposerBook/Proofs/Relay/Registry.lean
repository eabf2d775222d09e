/-
The registry of a book, and what its lists are there for.

A book shares its registry with others, and merges into it what the other side answers, under
whatever names.  For the registry this is an update as any other, so that at every time of every
run it is one that arises by operations, and what holds of all of those holds of it.

A list stops its members when it is named, since a name that has a list stands for it.  The one
name that never stands for its own list is the empty one: a proposer who names no list is screened
against the baseline, and so a list that comes in under the empty name is shown with the others,
and is not screened against.
-/
import ProposerBook.Proofs.Relay.Lists
import ProposerBook.Proofs.Screening.Decision
import ProposerBook.Proofs.Screening.History

namespace ProposerBook

namespace Relay

/-! ### What a run does to the registry -/

/-- An event leaves the registry alone, or does one operation on it. -/
theorem occur_registry (r : Relay) (e : Event) :
    (r.occur e).registry = r.registry ∨ ∃ o, (r.occur e).registry = r.registry.perform o := by
  cases e with
  | call c =>
    show (if r.isOpening then r else r.serve c).registry = r.registry ∨ _
    by_cases hopening : r.isOpening = true
    · rw [if_pos hopening]
      exact Or.inl rfl
    · rw [if_neg hopening]
      exact Or.inl (r.serve_registry c)
  | move id =>
    cases hready : r.ready? id with
    | none =>
      left
      simp only [occur, hready]
    | some x =>
      obtain ⟨before, t, after⟩ := x
      have hmove := r.move_registry t
      have hmoved : (r.occur (.move id)).registry = (r.move t).1.registry := by
        rw [occur_of_ready hready]
        rfl
      rw [hmoved]
      cases hmerges : r.merges? t with
      | none =>
        rw [hmerges] at hmove
        exact Or.inl hmove
      | some lists =>
        rw [hmerges] at hmove
        exact Or.inr ⟨.update r.arrivals lists, hmove⟩
  | registry o => exact Or.inr ⟨o, rfl⟩
  | _ => exact Or.inl rfl

/-- **At every time of every run the registry is one that arises by operations.** -/
theorem arises_run {r : Relay} (h : r.registry.Arises) (es : List Event) :
    (r.run es).registry.Arises := by
  induction es generalizing r with
  | nil => exact h
  | cons e es ih =>
    refine ih (r := r.occur e) ?_
    rcases r.occur_registry e with hsame | ⟨o, ho⟩
    · rw [hsame]
      exact h
    · rw [ho]
      exact .operation h o

end Relay

namespace Registry

/-! ### What a check says of its list -/

theorem not_unknown_of_mem_names {r : Registry} {name : String} (h : name ∈ r.names) :
    ¬r.Unknown name := by
  rintro ⟨-, hno⟩
  rw [Table.contains_iff.mpr (mem_names_iff.mp h)] at hno
  cases hno

/-- That a list is missing is said by the choice of the list alone. -/
theorem Audit.known {r : Registry} {list : String} {s : AddressSet} {as : List Address}
    {fs : List Finding} (h : Audit r list s as fs) (n : String) : .unknownList n ∉ fs := by
  cases h with
  | clean => exact List.not_mem_nil
  | listed => simp
  | blacklisted => simp

/-- Nothing is said to be missing where the name has a list. -/
theorem Arises.known {r : Registry} (h : r.Arises) {name : String} (listed : name ∈ r.names)
    (as : List Address) (n : String) : .unknownList n ∉ (r.check name as).findings := by
  obtain ⟨s, hs⟩ := h.screened name
  rw [check_eq]
  dsimp only
  rw [if_neg (not_unknown_of_mem_names listed), List.nil_append]
  exact (audit_finding as hs).known n

theorem screened_of_mem_names {r : Registry} {name : String} (h : name ∈ r.names)
    (named : name ≠ "") : r.screened name = name := by
  unfold screened
  exact if_pos ⟨named, Table.contains_iff.mpr (mem_names_iff.mp h)⟩

/-- **A list that is named stops its members.** -/
theorem stops_of_mem {r : Registry} {name : String} {list : AddressSet} {a : Address}
    {as : List Address} (listed : r.lists.get? name = some list) (named : name ≠ "")
    (member : a ∈ list) (asked : a ∈ as) : (r.check name as).compliant = false := by
  have hname := mem_names_iff.mpr ⟨list, listed⟩
  have hlist : r.lists.get? (r.screened name) = some list := by
    rw [screened_of_mem_names hname named]
    exact listed
  rw [← Bool.not_eq_true, compliant_iff hlist, Classical.not_not]
  exact ⟨a, asked, Or.inl member⟩

/-- The empty name does as well as the baseline's, whatever list has it. -/
theorem Arises.check_empty {r : Registry} (h : r.Arises) (as : List Address) :
    r.check "" as = r.check Baseline.name as := by
  have hempty : ¬r.Unknown "" := fun hc => hc.1 rfl
  have hbaseline := not_unknown_of_mem_names (mem_names_iff.mpr h.baseline)
  rw [check_eq, check_eq, screened_of_empty, screened_baseline, if_neg hempty, if_neg hbaseline]

end Registry

namespace Relay

/-! ### The main result -/

/--
**A list that is named is enforced.**  At any time of any run, whatever lists have come in and from
where, every name that is told has a list, and its record.  A check with this name never says that
the list is missing.  Unless the name is empty, the check fails as soon as one address among those
asked for, wherever it stands, is on the list.  The empty name stands for the baseline even where a
list has come in under it: the verdict and what goes on record are those of the baseline.
-/
theorem named_lists_enforced {r : Relay} (h : r.registry.Arises) (es : List Event) :
    let g := ((opened r).run es).registry
    ∀ name ∈ g.names, ∃ list, g.lists.get? name = some list ∧
      g.record? name = some (.of name list (g.since name)) ∧
      (∀ as n, .unknownList n ∉ (g.check name as).findings) ∧
      (name ≠ "" → ∀ a ∈ list, ∀ as, a ∈ as → (g.check name as).compliant = false) ∧
      (name = "" → ∀ as, g.check name as = g.check Baseline.name as) := by
  intro g name hname
  have harises : g.Arises := arises_run (r := opened r) h es
  obtain ⟨list, hlist⟩ := Registry.mem_names_iff.mp hname
  refine ⟨list, hlist, ?_, harises.known hname, ?_, ?_⟩
  · rw [harises.record?_eq, hlist]
    rfl
  · intro hnamed a ha as has
    exact Registry.stops_of_mem hlist hnamed ha has
  · rintro rfl
    exact harises.check_empty

/-- Asked for the list `"custom"`, the other side brings a list without a name as well, and a
baseline of its own. -/
def nameless : Relay :=
  serving [⟨0, .answer (.ok (Table.ofList
    [("", .ofList [Registry.listedAddress]), ("custom", .ofList [Registry.listedAddress]),
      (Baseline.name, .ofList [Registry.blockedAddress])]))⟩]

/-- What has come in by the end of its first sync. -/
theorem nameless_names :
    ((opened nameless).run [.move 0, .move 0, .move 0]).registry.names =
      ["", "custom", Baseline.name] := by
  decide +kernel

/-- Both lists have the address, and it is stopped where the list has a name. -/
theorem named_lists_enforced_nameless :
    let g := ((opened nameless).run [.move 0, .move 0, .move 0]).registry
    nameless.registry.Arises ∧ "custom" ∈ g.names ∧ "" ∈ g.names ∧
      (g.check "custom" [Registry.blockedAddress, Registry.listedAddress]).compliant = false ∧
      .unknownList "custom" ∉ (g.check "custom" [Registry.listedAddress]).findings ∧
      g.check "" [Registry.listedAddress] = g.check Baseline.name [Registry.listedAddress] := by
  intro g
  have harises : nameless.registry.Arises := .fresh
  have hnames : g.names = ["", "custom", Baseline.name] := nameless_names
  have hcustom : "custom" ∈ g.names := by
    rw [hnames]
    decide
  have hempty : "" ∈ g.names := by
    rw [hnames]
    exact List.mem_cons_self
  have hlist : g.lists.get? "custom" = some (.ofList [Registry.listedAddress]) := by
    decide +kernel
  have hmember : Registry.listedAddress ∈ AddressSet.ofList [Registry.listedAddress] :=
    AddressSet.mem_ofList.mpr List.mem_cons_self
  obtain ⟨list, hget, -, hknown, hstops, -⟩ :=
    named_lists_enforced harises [.move 0, .move 0, .move 0] "custom" hcustom
  obtain ⟨-, -, -, -, -, hfalls⟩ :=
    named_lists_enforced harises [.move 0, .move 0, .move 0] "" hempty
  obtain rfl : AddressSet.ofList [Registry.listedAddress] = list :=
    Option.some.inj (hlist.symm.trans hget)
  refine ⟨harises, hcustom, hempty, ?_, hknown _ _, hfalls rfl _⟩
  exact hstops (by decide) _ hmember _ (List.mem_cons_of_mem _ List.mem_cons_self)

/-- A list that is told may stop nobody: the one without a name. -/
theorem nameless_list_idle : ¬∀ (r : Relay) (es : List Event), r.registry.Arises →
    let g := ((opened r).run es).registry
    ∀ name ∈ g.names, ∀ list, g.lists.get? name = some list →
      ∀ a ∈ list, ∀ as, a ∈ as → (g.check name as).compliant = false := by
  intro hall
  have hempty : "" ∈ ((opened nameless).run [.move 0, .move 0, .move 0]).registry.names := by
    rw [nameless_names]
    exact List.mem_cons_self
  have hlist : ((opened nameless).run [.move 0, .move 0, .move 0]).registry.lists.get? "" =
      some (.ofList [Registry.listedAddress]) := by
    decide +kernel
  have hmember : Registry.listedAddress ∈ AddressSet.ofList [Registry.listedAddress] :=
    AddressSet.mem_ofList.mpr List.mem_cons_self
  have hstopped := hall nameless [.move 0, .move 0, .move 0] .fresh "" hempty _ hlist _ hmember
    [Registry.listedAddress] List.mem_cons_self
  have hpasses : (((opened nameless).run [.move 0, .move 0, .move 0]).registry.check ""
      [Registry.listedAddress]).compliant = true := by
    decide +kernel
  rw [hpasses] at hstopped
  cases hstopped

end Relay

end ProposerBook
