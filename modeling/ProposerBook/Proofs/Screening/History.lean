/-
What a history leaves behind.

A registry has two parts that know nothing of each other.  Lists are replaced name by name,
each by whole lists, and the blacklist as a whole; no operation touches both parts, and one that
fails touches neither.  So what stands under a name is what the last operation brought that
brought anything for this name, and likewise for the blacklist.  A new registry tells what is
there if none did.

Of lists merged in, the order is of no account: each name comes once, and names are independent
of one another.  For the same reason two updates that have no name in common may change
places.
-/
import ProposerBook.Proofs.Screening.Records

namespace ProposerBook

namespace Registry

/-! ### What an operation brings -/

/-- The list that an operation brings for a name. -/
def Operation.carries? (o : Operation) (name : String) : Option AddressSet :=
  o.merges?.bind (·.get? name)

/-- When the list comes in that an operation brings for a name. -/
def Operation.comes? (o : Operation) (name : String) : Option Timestamp :=
  (o.carries? name).map fun _ => o.times name

/-- The blacklist that an operation puts in place. -/
def Operation.blocks? : Operation → Option Blacklist
  | .block s => some (.ofSet s)
  | .readBlacklist file => (Blacklist.ofFile file).toOption
  | .update .. | .load .. => none

/-- Why an operation fails. -/
def fault? (r : Registry) : Operation → Option ScreeningError
  | .block _ | .update .. => none
  | .readBlacklist file =>
    match Blacklist.ofFile file with
    | .ok _ => none
    | .error e => some e
  | .load times file =>
    match r.loadFile times file with
    | .ok _ => none
    | .error e => some e

theorem blocks?_of_merges {o : Operation} {lists : NamedLists} (h : o.merges? = some lists) :
    o.blocks? = none := by
  cases o with
  | block s => cases h
  | readBlacklist file => cases h
  | update times l => rfl
  | load times file => rfl

/-- **No operation touches both the lists and the blacklist.** -/
theorem merges?_or_blocks? (o : Operation) : o.merges? = none ∨ o.blocks? = none := by
  cases hmerges : o.merges? with
  | none => exact Or.inl rfl
  | some lists => exact Or.inr (blocks?_of_merges hmerges)

/-- An operation fails just if it brings neither lists nor a blacklist. -/
theorem fault?_isSome_iff (r : Registry) (o : Operation) :
    (r.fault? o).isSome = true ↔ o.merges? = none ∧ o.blocks? = none := by
  cases o with
  | block s => simp [fault?, Operation.blocks?]
  | update times lists => simp [fault?, Operation.merges?]
  | readBlacklist file =>
    cases hread : Blacklist.ofFile file <;>
      simp [fault?, Operation.merges?, Operation.blocks?, hread, Except.toOption]
  | load times file =>
    cases file with
    | error e =>
      have hload : r.loadFile times (.error e) = .error (.file e) := rfl
      simp [fault?, Operation.merges?, Operation.blocks?, hload]
    | ok b =>
      cases hdecode : Snapshot.decode b <;>
        simp [fault?, Operation.merges?, Operation.blocks?, loadFile_ok, hdecode, Except.toOption]

/-! ### One operation -/

theorem lists_perform (r : Registry) (o : Operation) (n : String) :
    (r.perform o).lists.get? n = (o.carries? n).or (r.lists.get? n) :=
  lists_of_laid_over (r.held_perform o n)

theorem since_perform (r : Registry) (o : Operation) (n : String) :
    (r.perform o).since n = (o.comes? n).getD (r.since n) := by
  have hheld := r.held_perform o n
  unfold Operation.comes? Operation.carries?
  cases hcarries : o.merges?.bind (·.get? n) with
  | none =>
    rw [hcarries] at hheld
    have hrecord : (r.perform o).record? n = r.record? n := congrArg Prod.snd hheld
    unfold since
    rw [hrecord]
    rfl
  | some list =>
    rw [hcarries] at hheld
    exact since_of_held hheld

theorem blacklist_perform (r : Registry) (o : Operation) :
    (r.perform o).blacklist = o.blocks?.getD r.blacklist := by
  cases o with
  | block s => rfl
  | update times lists => exact r.blacklist_update times lists
  | readBlacklist file =>
    have hblocks : Operation.blocks? (.readBlacklist file)
        = (Blacklist.ofFile file).toOption := rfl
    rw [perform_readBlacklist, hblocks]
    cases Blacklist.ofFile file <;> rfl
  | load times file =>
    rw [perform_load]
    cases file with
    | error e => rfl
    | ok b =>
      rw [loadFile_ok]
      cases Snapshot.decode b with
      | error e => rfl
      | ok lists => exact r.blacklist_update times lists

/-- What merges nothing in leaves what is held alone. -/
theorem held_perform_of_merges?_none (r : Registry) {o : Operation} (h : o.merges? = none)
    (n : String) : (r.perform o).held n = r.held n := by
  rw [held_perform, h]
  rfl

theorem blacklist_perform_of_blocks?_none (r : Registry) {o : Operation} (h : o.blocks? = none) :
    (r.perform o).blacklist = r.blacklist := by
  rw [blacklist_perform, h]
  rfl

/-- **An operation that fails changes nothing.** -/
theorem perform_of_fault {r : Registry} {o : Operation} (h : (r.fault? o).isSome = true) :
    r.perform o = r := by
  obtain ⟨hmerges, hblocks⟩ := (r.fault?_isSome_iff o).mp h
  exact ext_held (r.held_perform_of_merges?_none hmerges)
    (r.blacklist_perform_of_blocks?_none hblocks)

/-! ### One update -/

/-- **The order in which lists come in has no bearing on what they make of a registry.** -/
theorem upsertAll_of_perm (r : Registry) (times : Arrivals) {lists : NamedLists}
    {es : List (String × AddressSet)} (h : es.Perm lists.entries) :
    r.upsertAll times es = r.update times lists := by
  refine ext_held (fun n => ?_) ?_
  · rw [held_upsertAll, Table.ofList_of_perm h, held_update]
  · rw [blacklist_upsertAll, blacklist_update]

/-- **Updates that have no name in common may change places.** -/
theorem update_comm (r : Registry) (times later : Arrivals) {l m : NamedLists}
    (h : ∀ n, l.get? n = none ∨ m.get? n = none) :
    (r.update times l).update later m = (r.update later m).update times l := by
  refine ext_held (fun n => ?_) ?_
  · simp only [held_update]
    rcases h n with hl | hm
    · rw [hl]
    · rw [hm]
  · simp only [blacklist_update]

/-! ### A history -/

/-- What the last operation that gives something gives. -/
def latest? {α : Type} (f : Operation → Option α) (os : List Operation) : Option α :=
  os.reverse.findSome? f

theorem latest?_eq_none_iff {α : Type} {f : Operation → Option α} {os : List Operation} :
    latest? f os = none ↔ ∀ o ∈ os, f o = none := by
  unfold latest?
  rw [List.findSome?_eq_none_iff]
  simp only [List.mem_reverse]

theorem latest?_cons {α : Type} (f : Operation → Option α) (o : Operation)
    (os : List Operation) : latest? f (o :: os) = (latest? f os).or (f o) := by
  unfold latest?
  rw [List.reverse_cons, List.findSome?_append]
  simp

/-- Where each operation replaces something or leaves it, the last replacement stands. -/
theorem eq_latest_of_step {α β : Type} {g : Registry → β} {f : Operation → Option α}
    {h : α → β} (step : ∀ r o, g (r.perform o) = ((f o).map h).getD (g r))
    (os : List Operation) (r : Registry) :
    g (r.after os) = ((latest? f os).map h).getD (g r) := by
  induction os generalizing r with
  | nil => rfl
  | cons o os ih =>
    show g ((r.perform o).after os) = _
    rw [ih, step, latest?_cons]
    cases latest? f os <;> rfl

/-- **Under a name stands what came last for it**, or what was there before. -/
theorem lists_after (r : Registry) (os : List Operation) (n : String) :
    (r.after os).lists.get? n = (latest? (·.carries? n) os).or (r.lists.get? n) := by
  have hgetD : ∀ x y : Option AddressSet, (x.map some).getD y = x.or y := by
    intro x y
    cases x <;> rfl
  have hstep : ∀ (r : Registry) (o : Operation),
      (r.perform o).lists.get? n = ((o.carries? n).map some).getD (r.lists.get? n) := by
    intro r o
    rw [hgetD, lists_perform]
  rw [eq_latest_of_step (g := fun r => r.lists.get? n) hstep, hgetD]

/-- **A record has the time at which its list came in**, or at which the registry was made. -/
theorem since_after {made : Timestamp} {os : List Operation} {n : String} {list : AddressSet}
    (h : ((fresh made).after os).lists.get? n = some list) :
    ((fresh made).after os).since n = (latest? (·.comes? n) os).getD made := by
  have hstep : ∀ (r : Registry) (o : Operation),
      (r.perform o).since n = ((o.comes? n).map id).getD (r.since n) := by
    intro r o
    rw [Option.map_id, id_eq, since_perform]
  rw [eq_latest_of_step (g := fun r => r.since n) hstep, Option.map_id, id_eq]
  cases hlatest : latest? (·.comes? n) os with
  | some updated => rfl
  | none =>
    -- No operation brings a list for this name, so it is the baseline's.
    have hnone : latest? (·.carries? n) os = none := by
      refine latest?_eq_none_iff.mpr fun o ho => ?_
      exact Option.map_eq_none_iff.mp (latest?_eq_none_iff.mp hlatest o ho)
    rw [lists_after, hnone, Option.none_or, lists_fresh] at h
    by_cases hn : n = Baseline.name
    · have hheld := held_fresh made n
      rw [if_pos hn] at hheld
      exact since_of_held hheld
    · rw [if_neg hn] at h
      cases h

/-- **The blacklist is the one put in place last.** -/
theorem blacklist_after (r : Registry) (os : List Operation) :
    (r.after os).blacklist = (latest? Operation.blocks? os).getD r.blacklist := by
  have hstep : ∀ (r : Registry) (o : Operation),
      (r.perform o).blacklist = (o.blocks?.map id).getD r.blacklist := by
    intro r o
    rw [Option.map_id, id_eq, blacklist_perform]
  rw [eq_latest_of_step (g := Registry.blacklist) hstep, Option.map_id, id_eq]

theorem arises_after {r : Registry} (h : r.Arises) (os : List Operation) : (r.after os).Arises := by
  induction os generalizing r with
  | nil => exact h
  | cons o os ih => exact ih (.operation h o)

/-- **A name that is there stays.** -/
theorem names_after {r : Registry} {os : List Operation} {n : String} (h : n ∈ r.names) :
    n ∈ (r.after os).names := by
  obtain ⟨list, hlist⟩ := mem_names_iff.mp h
  rw [mem_names_iff, lists_after, hlist]
  cases latest? (·.carries? n) os with
  | none => exact ⟨list, rfl⟩
  | some l => exact ⟨l, rfl⟩

theorem after_append (r : Registry) (os ps : List Operation) :
    r.after (os ++ ps) = (r.after os).after ps := List.foldl_append

/-! ### The main result -/

/--
**The history of a registry decides what it is.**  Under a name stands the list that came last
for this name, or else, under that of the baseline, the list of the new registry, and each list
has its record, which tells when that was; the blacklist is the last one put in place.  In what
order the lists of an update come is of no account, no name ever goes, and updates without a common
name commute.  An operation that brings no lists leaves lists and records as they are, one that
brings no blacklist leaves the blacklist, and none brings both; those that fail are the ones that
bring neither, and they change nothing.  Files read at set-up count as the first operations.
-/
theorem history_decides (made : Timestamp) (os : List Operation) :
    let r := (fresh made).after os
    (∀ n, r.lists.get? n = (latest? (·.carries? n) os).or
      (if n = Baseline.name then some Baseline.addresses else none)) ∧
    (∀ n, r.record? n =
      (r.lists.get? n).map (.of n · ((latest? (·.comes? n) os).getD made))) ∧
    r.blacklist = (latest? Operation.blocks? os).getD .empty ∧
    (∀ times (lists : NamedLists) (es : List (String × AddressSet)), es.Perm lists.entries →
      r.upsertAll times es = r.update times lists) ∧
    (∀ n later, n ∈ r.names → n ∈ (r.after later).names) ∧
    (∀ times later (l m : NamedLists), (∀ n, l.get? n = none ∨ m.get? n = none) →
      (r.update times l).update later m = (r.update later m).update times l) ∧
    (∀ o : Operation, (o.merges? = none ∨ o.blocks? = none) ∧
      (o.merges? = none → ∀ n, (r.perform o).lists.get? n = r.lists.get? n ∧
        (r.perform o).record? n = r.record? n) ∧
      (o.blocks? = none → (r.perform o).blacklist = r.blacklist) ∧
      ((r.fault? o).isSome = true ↔ o.merges? = none ∧ o.blocks? = none) ∧
      ((r.fault? o).isSome = true → r.perform o = r)) ∧
    (∀ times blacklist snapshot s, ofFiles made times blacklist snapshot = .ok s →
      s.after os = (fresh made).after (configured times blacklist snapshot ++ os)) := by
  intro r
  refine ⟨?_, ?_, blacklist_after _ os, fun times _ _ => r.upsertAll_of_perm times,
    fun _ _ => names_after, fun times later _ _ => r.update_comm times later, ?_, ?_⟩
  · intro n
    rw [← lists_fresh made]
    exact lists_after _ os n
  · intro n
    have hrecord : r.record? n = _ := (arises_after .fresh os).record?_eq n
    rw [hrecord]
    cases hlist : r.lists.get? n with
    | none => rfl
    | some list =>
      exact congrArg (fun updated => some (ListRecord.of n list updated)) (since_after hlist)
  · intro o
    refine ⟨merges?_or_blocks? o, ?_, r.blacklist_perform_of_blocks?_none, r.fault?_isSome_iff o,
      perform_of_fault⟩
    intro hmerges n
    have hheld := r.held_perform_of_merges?_none hmerges n
    exact ⟨congrArg Prod.fst hheld, congrArg Prod.snd hheld⟩
  · intro times blacklist snapshot s hs
    rw [ofFiles_eq_ok hs, after_append]

/-- A list under two names and one under a third, a blacklist, two operations that fail, and one of
the names again. -/
def stocking : List Operation :=
  [.update unhurried
      (Table.ofList [("é", .ofList [stockedAddress]), ("z", .ofList [stockedAddress])]),
    .block (.ofList [stockedAddress]), .load default (.ok [1, 2, 3]),
    .readBlacklist (.error .notFound), .update (fun _ => ⟨7000⟩) (Table.ofList [("z", {})])]

theorem history_decides_stocking :
    let r := (fresh default).after stocking
    r.lists.get? "z" = some {} ∧ r.lists.get? "é" = some (.ofList [stockedAddress]) ∧
    r.lists.get? Baseline.name = some Baseline.addresses ∧ r.lists.get? "q" = none ∧
    r.record? "z" = some (.of "z" {} ⟨7000⟩) ∧
    r.record? "é" = some (.of "é" (.ofList [stockedAddress]) ⟨1001⟩) ∧
    r.blacklist = .ofSet (.ofList [stockedAddress]) ∧
    r.upsertAll unhurried [("z", {}), ("a", {})] =
      r.update unhurried (Table.ofList [("a", {}), ("z", {})]) ∧
    "é" ∈ (r.after stocking).names ∧
    (r.update unhurried (Table.ofList [("a", {})])).update default (Table.ofList [("z", {})])
      = (r.update default (Table.ofList [("z", {})])).update unhurried (Table.ofList [("a", {})]) ∧
    (r.perform (.block {})).lists.get? "z" = r.lists.get? "z" ∧
    (r.perform (.update unhurried {})).blacklist = r.blacklist ∧
    r.perform (.load unhurried (.ok [1, 2, 3])) = r ∧
    (fresh default).after stocking =
      (fresh default).after (configured default none none ++ stocking) := by
  intro r
  obtain ⟨hlists, hrecords, hblacklist, hperm, hnames, hcomm, hstep, hfiles⟩ :=
    history_decides default stocking
  have hz : r.lists.get? "z" = some {} := (hlists "z").trans (by decide)
  have hlist : r.lists.get? "é" = some (.ofList [stockedAddress]) := (hlists "é").trans (by decide)
  refine ⟨hz, hlist, hlists Baseline.name,
    (hlists "q").trans (by decide), ?_, ?_, hblacklist, ?_, ?_, ?_, ?_, ?_, ?_, ?_⟩
  · rw [hrecords, hz]
    rfl
  · rw [hrecords, hlist]
    rfl
  · exact hperm _ _ _ (by decide)
  · exact hnames "é" stocking (mem_names_iff.mpr ⟨_, hlist⟩)
  · refine hcomm _ _ _ _ fun n => ?_
    by_cases hn : n = "a"
    · rw [hn]
      exact Or.inr (by decide)
    · have hfree : ∀ e ∈ [(("a", {}) : String × AddressSet)], e.1 ≠ n := by
        intro e he
        rw [List.mem_singleton.mp he]
        exact fun h => hn h.symm
      exact Or.inl ((Table.get?_insertAll_of_ne hfree).trans Table.get?_empty)
  · exact (((hstep (.block {})).2.1 rfl) "z").1
  · exact (hstep (.update unhurried {})).2.2.1 rfl
  · exact (hstep (.load unhurried (.ok [1, 2, 3]))).2.2.2.2 (by decide)
  · exact hfiles default none none (fresh default) rfl

end Registry

end ProposerBook
