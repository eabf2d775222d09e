/-
Lists and what is known about them.

A registry keeps its lists and their records in two tables, which nothing ties to each
other but the way lists come in: each time one does, its record does too.  So under every
name there is a list just if there is a record, and the record is that of the list.  This
holds of a new registry, and every operation keeps it, for under a name it either puts in
both or leaves both alone.
-/
import ProposerBook.Proofs.Screening.Registry
import ProposerBook.Proofs.Text.ByteOrder

namespace ProposerBook

namespace AddressSet

/-- The members, each once. -/
theorem nodup_members (s : AddressSet) : s.members.Nodup := Sorted.nodup_of_ascending s.ascending

end AddressSet

namespace Registry

/-! ### In step -/

theorem held_fresh (made : Timestamp) (n : String) : (fresh made).held n =
    if n = Baseline.name then entered n Baseline.addresses made else (none, none) := by
  by_cases hn : n = Baseline.name
  · rw [if_pos hn, hn]
    exact held_upsert_self _ _ _ _
  · rw [if_neg hn]
    exact held_upsert_of_ne _ _ _ hn

theorem lists_fresh (made : Timestamp) (n : String) : (fresh made).lists.get? n =
    if n = Baseline.name then some Baseline.addresses else none := by
  have hfresh : (fresh made).lists.get? n = _ := congrArg Prod.fst (held_fresh made n)
  rw [hfresh]
  split <;> rfl

/-- What is held under a name is a list with its record, or nothing. -/
theorem Arises.held_cases {r : Registry} (h : r.Arises) (n : String) :
    r.held n = (none, none) ∨ ∃ list updated, r.held n = entered n list updated := by
  refine h.induct (motive := fun r => r.held n = (none, none) ∨
    ∃ list updated, r.held n = entered n list updated) ?_ ?_
  · intro made
    rw [held_fresh]
    by_cases hn : n = Baseline.name
    · exact Or.inr ⟨_, _, if_pos hn⟩
    · exact Or.inl (if_neg hn)
  · intro r o hr
    rw [held_perform]
    cases o.merges?.bind (·.get? n) with
    | none => exact hr
    | some list => exact Or.inr ⟨list, _, rfl⟩

/-- **The record under a name is that of the list under this name.** -/
theorem Arises.record?_eq {r : Registry} (h : r.Arises) (n : String) :
    r.record? n = (r.lists.get? n).map (.of n · (r.since n)) := by
  rcases h.held_cases n with hnone | ⟨list, updated, hlist⟩
  · have hno : r.lists.get? n = none := congrArg Prod.fst hnone
    rw [hno]
    exact congrArg Prod.snd hnone
  · rw [lists_of_held hlist, since_of_held hlist]
    exact congrArg Prod.snd hlist

/-! ### The names -/

theorem mem_names_iff {r : Registry} {n : String} :
    n ∈ r.names ↔ ∃ list, r.lists.get? n = some list := Table.mem_keys_iff

/-- The names come in the order of their bytes. -/
theorem ascending_names (r : Registry) :
    r.names.Pairwise fun m n => Bytes.ofString m < Bytes.ofString n :=
  r.lists.ascending_keys.imp Bytes.ofString_lt_of_compare

theorem Arises.names_eq {r : Registry} (h : r.Arises) : r.records.keys = r.lists.keys := by
  refine Table.keys_eq_of_mem_iff fun n => ?_
  have hrecord : r.records.get? n = (r.lists.get? n).map (.of n · (r.since n)) := h.record?_eq n
  rw [Table.mem_keys_iff, Table.mem_keys_iff, hrecord]
  simp

/-! ### The main result -/

/--
**Lists and records are in step.**  The same names have lists and records, and a record has its
name, tells how many addresses are on the list and gives the list's checksum.  The baseline is
there, and the names are told one by one, each once, in the order of their bytes.
-/
theorem records_tell_of_lists {r : Registry} (h : r.Arises) :
    r.records.keys = r.lists.keys ∧
    (∀ n list, r.lists.get? n = some list → ∃ record, r.record? n = some record ∧
      record.name = n ∧
      (∃ as : List Address, as.Nodup ∧ (∀ a, a ∈ as ↔ a ∈ list) ∧ record.count = as.length) ∧
      record.checksum = list.checksum) ∧
    (∃ list, r.lists.get? Baseline.name = some list) ∧
    r.names.Nodup ∧
    (∀ n, n ∈ r.names ↔ ∃ list, r.lists.get? n = some list) ∧
    r.names.Pairwise fun m n => Bytes.ofString m < Bytes.ofString n := by
  refine ⟨h.names_eq, ?_, h.baseline, r.lists.nodup_keys, fun _ => mem_names_iff, ascending_names r⟩
  intro n list hlist
  have hrecord := h.record?_eq n
  rw [hlist] at hrecord
  exact ⟨.of n list _, hrecord, rfl, ⟨list.members, list.nodup_members, fun _ => Iff.rfl, rfl⟩, rfl⟩

/-- The address on one of the lists. -/
def stockedAddress : Address := .repeated 1

/-- Lists come in one by one, some time after the start. -/
def unhurried : Arrivals := fun name => ⟨1000 + name.length⟩

/-- A registry with two lists more, and after two loads that failed. -/
def stocked : Registry :=
  (((fresh default).perform (.update unhurried
    (Table.ofList [("é", .ofList [stockedAddress]), ("z", {})]))).perform
    (.load default (.ok [1, 2, 3]))).perform (.load default (.error .notFound))

theorem records_tell_of_lists_stocked :
    stocked.Arises ∧ stocked.records.keys = ["ofac", "z", "é"] ∧
    (∃ record, stocked.record? "é" = some record ∧ record.name = "é" ∧ record.count = 1 ∧
      record.checksum = (AddressSet.ofList [stockedAddress]).checksum) ∧
    stocked.names.Pairwise fun m n => Bytes.ofString m < Bytes.ofString n := by
  have harises : stocked.Arises := .operation (.operation (.operation .fresh _) _) _
  obtain ⟨hkeys, hrecords, -, -, -, hascending⟩ := records_tell_of_lists harises
  have hlist : stocked.lists.get? "é" = some (.ofList [stockedAddress]) := by decide
  obtain ⟨record, hrecord, hname, ⟨as, hnodup, hmem, hcount⟩, hchecksum⟩ := hrecords _ _ hlist
  have hperm : as.Perm [stockedAddress] := by
    rw [List.perm_ext_iff_of_nodup hnodup (by simp)]
    intro a
    rw [hmem, AddressSet.mem_ofList]
  refine ⟨harises, hkeys.trans (by decide), ?_, hascending⟩
  exact ⟨record, hrecord, hname, hcount.trans hperm.length_eq, hchecksum⟩

end Registry

end ProposerBook
