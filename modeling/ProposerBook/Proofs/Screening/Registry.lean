/-
What a registry holds, and which registries there are.

Under a name a registry holds a list and what is known about it, and both come in
together.  So one lookup, `held`, tells of both, and merging lists in does to it what laying
one table over another does: the names that come in get what comes with them, and under
every other name all stays.

A registry is new, or made from configured files, and has then been worked on.  What set-up
does with the files it might as well do afterwards, so whatever holds of a new registry and
outlasts every operation holds of every registry.  The baseline is one such thing: it may be
replaced, but never goes.
-/
import ProposerBook.Proofs.AddressSet
import ProposerBook.Proofs.Screening.Operation
import ProposerBook.Proofs.Table

namespace ProposerBook

/-- The baseline sanctions somebody. -/
theorem Baseline.addresses_ne_empty : Baseline.addresses ≠ {} := by
  obtain ⟨a, ha⟩ : ∃ a,
      (Address.parse "8576acc5c05d6ce88f4e49bf65bdf0c62f91353c").toOption = some a :=
    Option.isSome_iff_exists.mp (by decide)
  have hmem : a ∈ Baseline.addresses :=
    AddressSet.mem_ofList.mpr (List.mem_filterMap.mpr ⟨_, List.mem_cons_self, ha⟩)
  intro hempty
  rw [hempty] at hmem
  exact AddressSet.not_mem_empty a hmem

namespace Registry

/-! ### Lists and their records -/

/-- The list under a name, and what is known about it. -/
def held (r : Registry) (name : String) : Option AddressSet × Option ListRecord :=
  (r.lists.get? name, r.record? name)

/-- When the list under a name came in. -/
def since (r : Registry) : Arrivals := fun name =>
  ((r.record? name).map ListRecord.updated).getD default

/-- What is held under a name at which a list has come in at some time. -/
def entered (name : String) (list : AddressSet) (updated : Timestamp) :
    Option AddressSet × Option ListRecord :=
  (some list, some (.of name list updated))

theorem lists_of_held {r : Registry} {name : String} {list : AddressSet} {updated : Timestamp}
    (h : r.held name = entered name list updated) : r.lists.get? name = some list :=
  congrArg Prod.fst h

/-- Where what comes in is laid over what was there, so are the lists. -/
theorem lists_of_laid_over {r s : Registry} {name : String} {come : Option AddressSet}
    {updated : Timestamp} (h : r.held name = match come with
      | some list => entered name list updated
      | none => s.held name) : r.lists.get? name = come.or (s.lists.get? name) := by
  cases come with
  | none => exact congrArg Prod.fst h
  | some list => exact lists_of_held h

theorem since_of_held {r : Registry} {name : String} {list : AddressSet} {updated : Timestamp}
    (h : r.held name = entered name list updated) : r.since name = updated := by
  have hrecord : r.record? name = some (.of name list updated) := congrArg Prod.snd h
  unfold since
  rw [hrecord]
  rfl

theorem held_upsert_self (r : Registry) (updated : Timestamp) (name : String) (list : AddressSet) :
    (r.upsert updated name list).held name = entered name list updated := by
  unfold held record? upsert
  rw [Table.get?_insert_self, Table.get?_insert_self]
  rfl

theorem held_upsert_of_ne (r : Registry) {name n : String} (updated : Timestamp)
    (list : AddressSet) (h : n ≠ name) : (r.upsert updated name list).held n = r.held n := by
  unfold held record? upsert
  rw [Table.get?_insert_of_ne h, Table.get?_insert_of_ne h]

theorem held_upsertAll_of_ne {r : Registry} {times : Arrivals} {es : List (String × AddressSet)}
    {n : String} (h : ∀ e ∈ es, e.1 ≠ n) : (r.upsertAll times es).held n = r.held n := by
  induction es generalizing r with
  | nil => rfl
  | cons e es ih =>
    show ((r.upsert (times e.1) e.1 e.2).upsertAll times es).held n = _
    rw [ih fun f hf => h f (List.mem_cons_of_mem _ hf)]
    exact held_upsert_of_ne r _ e.2 (h e List.mem_cons_self).symm

theorem held_upsertAll_of_last {r : Registry} {times : Arrivals}
    {es fs : List (String × AddressSet)} {n : String} {list : AddressSet}
    (h : ∀ e ∈ fs, e.1 ≠ n) :
    (r.upsertAll times (es ++ (n, list) :: fs)).held n = entered n list (times n) := by
  have happend : r.upsertAll times (es ++ (n, list) :: fs)
      = ((r.upsertAll times es).upsert (times n) n list).upsertAll times fs := List.foldl_append
  rw [happend, held_upsertAll_of_ne h]
  exact held_upsert_self _ _ n list

/-- Lists that come in one after the other do what the table of them does. -/
theorem held_upsertAll (r : Registry) (times : Arrivals) (es : List (String × AddressSet))
    (n : String) : (r.upsertAll times es).held n = match (Table.ofList es).get? n with
      | some list => entered n list (times n)
      | none => r.held n := by
  by_cases hn : ∃ e ∈ es, e.1 = n
  · obtain ⟨before, ⟨m, list⟩, after, rfl, rfl, hafter⟩ := Table.exists_last hn
    have hget : (Table.ofList (before ++ (m, list) :: after)).get? m = some list :=
      Table.get?_insertAll_of_last hafter
    rw [hget]
    exact held_upsertAll_of_last hafter
  · have hne : ∀ e ∈ es, e.1 ≠ n := fun e he hen => hn ⟨e, he, hen⟩
    have hget : (Table.ofList es).get? n = none :=
      (Table.get?_insertAll_of_ne hne).trans Table.get?_empty
    rw [hget]
    exact held_upsertAll_of_ne hne

/-- **The names that come in get what comes with them; under all others nothing changes.** -/
theorem held_update (r : Registry) (times : Arrivals) (lists : NamedLists) (n : String) :
    (r.update times lists).held n = match lists.get? n with
      | some list => entered n list (times n)
      | none => r.held n := by
  have hheld := r.held_upsertAll times lists.entries n
  rw [Table.ofList_of_perm (List.Perm.refl lists.entries)] at hheld
  exact hheld

theorem lists_update (r : Registry) (times : Arrivals) (lists : NamedLists) (n : String) :
    (r.update times lists).lists.get? n = (lists.get? n).or (r.lists.get? n) :=
  lists_of_laid_over (r.held_update times lists n)

/-- A registry is what it holds, and its blacklist. -/
theorem ext_held {r s : Registry} (held : ∀ n, r.held n = s.held n)
    (blacklist : r.blacklist = s.blacklist) : r = s := by
  have hlists : r.lists = s.lists := Table.ext fun n => congrArg Prod.fst (held n)
  have hrecords : r.records = s.records := Table.ext fun n => congrArg Prod.snd (held n)
  cases r
  cases s
  rw [Registry.mk.injEq]
  exact ⟨hlists, hrecords, blacklist⟩

theorem blacklist_upsertAll (r : Registry) (times : Arrivals) (es : List (String × AddressSet)) :
    (r.upsertAll times es).blacklist = r.blacklist := by
  induction es generalizing r with
  | nil => rfl
  | cons e es ih => exact ih (r.upsert (times e.1) e.1 e.2)

theorem blacklist_update (r : Registry) (times : Arrivals) (lists : NamedLists) :
    (r.update times lists).blacklist = r.blacklist := r.blacklist_upsertAll times _

/-! ### Operations -/

/-- The lists that an operation merges in. -/
def Operation.merges? : Operation → Option NamedLists
  | .update _ lists => some lists
  | .load _ (.ok b) => (Snapshot.decode b).toOption
  | _ => none

/-- When the lists come in that an operation merges in. -/
def Operation.times : Operation → Arrivals
  | .update times _ | .load times _ => times
  | _ => default

theorem perform_readBlacklist (r : Registry) (file : FileContent) :
    r.perform (.readBlacklist file) = match Blacklist.ofFile file with
      | .ok b => r.withBlacklist b
      | .error _ => r := rfl

theorem perform_load (r : Registry) (times : Arrivals) (file : FileContent) :
    r.perform (.load times file) = match r.loadFile times file with
      | .ok (_, s) => s
      | .error _ => r := rfl

theorem loadFile_ok (r : Registry) (times : Arrivals) (b : Bytes) : r.loadFile times (.ok b) =
    match Snapshot.decode b with
    | .ok lists => .ok (lists.size, r.update times lists)
    | .error e => .error (.snapshot e) := by
  have hload : r.loadFile times (.ok b) = (r.load times b).mapError .snapshot := rfl
  rw [hload]
  unfold load
  cases Snapshot.decode b <;> rfl

/-- An operation merges lists in, or it leaves lists and records alone. -/
theorem perform_eq (r : Registry) (o : Operation) :
    match o.merges? with
    | some lists => r.perform o = r.update o.times lists
    | none => ∃ b, r.perform o = r.withBlacklist b := by
  cases o with
  | block s => exact ⟨_, rfl⟩
  | update times lists => rfl
  | readBlacklist file =>
    rw [perform_readBlacklist]
    cases Blacklist.ofFile file with
    | ok b => exact ⟨b, rfl⟩
    | error e => exact ⟨r.blacklist, rfl⟩
  | load times file =>
    cases file with
    | error e => exact ⟨r.blacklist, rfl⟩
    | ok b =>
      have hmerges : Operation.merges? (.load times (.ok b)) = (Snapshot.decode b).toOption := rfl
      rw [perform_load, loadFile_ok, hmerges]
      cases Snapshot.decode b with
      | ok lists => rfl
      | error e => exact ⟨r.blacklist, rfl⟩

theorem held_perform (r : Registry) (o : Operation) (n : String) :
    (r.perform o).held n = match o.merges?.bind (·.get? n) with
      | some list => entered n list (o.times n)
      | none => r.held n := by
  have hperform := r.perform_eq o
  cases hmerges : o.merges? with
  | none =>
    rw [hmerges] at hperform
    obtain ⟨b, hb⟩ := hperform
    rw [hb]
    rfl
  | some lists =>
    rw [hmerges] at hperform
    rw [hperform]
    exact r.held_update o.times lists n

/-! ### Which registries there are -/

/-- A registry as it may be found while the program runs. -/
inductive Arises : Registry → Prop
  | fresh {made : Timestamp} : Arises (.fresh made)
  | files {made : Timestamp} {times : Arrivals} {blacklist snapshot : Option FileContent}
      {r : Registry} (h : ofFiles made times blacklist snapshot = .ok r) : Arises r
  | operation {r : Registry} (h : Arises r) (o : Operation) : Arises (r.perform o)

theorem after_snapshotLoads {times : Arrivals} {snapshot : Option FileContent} {r s : Registry}
    (h : (match snapshot with
      | none => Except.ok r
      | some c =>
        if c.isThere then do
          let (_, t) ← r.loadFile times c
          return t
        else .ok r) = .ok s) : s = r.after (snapshotLoads times snapshot) := by
  cases snapshot with
  | none =>
    cases h
    rfl
  | some c =>
    have hloads : snapshotLoads times (some c) =
        if c.isThere then [.load times c] else [] := rfl
    dsimp only at h
    rw [hloads]
    by_cases hthere : c.isThere = true
    · rw [if_pos hthere] at h ⊢
      show s = r.perform (.load times c)
      rw [perform_load]
      cases hload : r.loadFile times c with
      | error e =>
        rw [hload] at h
        cases h
      | ok x =>
        rw [hload] at h
        cases h
        rfl
    · rw [if_neg hthere] at h ⊢
      cases h
      rfl

/-- **What set-up does with the files might as well be done to a new registry afterwards.** -/
theorem ofFiles_eq_ok {made : Timestamp} {times : Arrivals}
    {blacklist snapshot : Option FileContent} {r : Registry}
    (h : ofFiles made times blacklist snapshot = .ok r) :
    r = (fresh made).after (configured times blacklist snapshot) := by
  unfold ofFiles at h
  cases blacklist with
  | none => exact after_snapshotLoads h
  | some c =>
    cases hread : Blacklist.ofFile c with
    | error e =>
      simp only [hread] at h
      cases h
    | ok b =>
      simp only [hread] at h
      have hblocked : (fresh made).perform (.readBlacklist c) = (fresh made).withBlacklist b := by
        rw [perform_readBlacklist, hread]
      rw [after_snapshotLoads h, ← hblocked]
      rfl

/-- What holds of a new registry, and outlasts every operation, holds of every registry. -/
theorem Arises.induct {motive : Registry → Prop} (new : ∀ made, motive (.fresh made))
    (step : ∀ r o, motive r → motive (r.perform o)) {r : Registry} (h : r.Arises) :
    motive r := by
  have hrun : ∀ (os : List Operation) (s : Registry), motive s → motive (s.after os) := by
    intro os
    induction os with
    | nil => intro s hs; exact hs
    | cons o os ih => intro s hs; exact ih _ (step s o hs)
  induction h with
  | fresh => exact new _
  | files h =>
    rw [ofFiles_eq_ok h]
    exact hrun _ _ (new _)
  | operation _ o ih => exact step _ o ih

/-- **The baseline never goes.** -/
theorem Arises.baseline {r : Registry} (h : r.Arises) :
    ∃ list, r.lists.get? Baseline.name = some list := by
  have hheld : ∃ list updated, r.held Baseline.name = entered Baseline.name list updated := by
    refine h.induct (motive := fun r => ∃ list updated, r.held Baseline.name
      = entered Baseline.name list updated) (fun _ => ⟨_, _, held_upsert_self _ _ _ _⟩) ?_
    intro r o hr
    rw [held_perform]
    cases o.merges?.bind (·.get? Baseline.name) with
    | none => exact hr
    | some list => exact ⟨list, _, rfl⟩
  obtain ⟨list, updated, hlist⟩ := hheld
  exact ⟨list, lists_of_held hlist⟩

end Registry

end ProposerBook
