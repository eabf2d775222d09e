/-
What a snapshot means.

The layout says which bytes are read at all; here is what they stand for.  The set of an
entry is read in steps of twenty bytes, as many as there are, so an address is in it if
and only if it stands at a multiple of twenty.  Bytes that are left over at the end make
up no address, and since the length of a set is announced they do not shift the next
entry either.  Of several entries with one name the last counts, and the others leave
nothing behind.

`Means` says this of entries and lists without a word about how they are read, and
`means_iff` says that it fits one table only.
-/
import ProposerBook.Proofs.AddressSet
import ProposerBook.Proofs.Snapshot.Layout
import ProposerBook.Proofs.Table

namespace ProposerBook

namespace Snapshot

/-! ### The addresses of a set -/

/-- An address stands in `b`, after some number of others. -/
def HasChunk (b : Bytes) (a : Address) : Prop :=
  ∃ k, (b.drop (k * Address.size)).take Address.size = a.bytes

theorem ofBytes?_eq_some_iff {b : Bytes} {a : Address} :
    Address.ofBytes? b = some a ↔ b = a.bytes := by
  unfold Address.ofBytes?
  refine ⟨?_, ?_⟩
  · intro h
    split at h
    · cases h
      rfl
    · cases h
  · intro hx
    subst hx
    rw [dif_pos a.length_eq]

theorem mem_addresses {n : Nat} {b : Bytes} {a : Address} (h : n * Address.size ≤ b.length) :
    a ∈ addresses n b ↔
      ∃ k, k < n ∧ (b.drop (k * Address.size)).take Address.size = a.bytes := by
  induction n generalizing b with
  | zero =>
    refine ⟨?_, ?_⟩
    · intro ha
      cases ha
    · intro hx
      obtain ⟨k, hk, -⟩ := hx
      omega
  | succ n ih =>
    have hsize : (n + 1) * Address.size = n * Address.size + Address.size := Nat.succ_mul _ _
    have hlen : (b.take Address.size).length = 20 := List.length_take_of_le (by omega)
    have hfirst : Address.ofBytes? (b.take Address.size) = some ⟨b.take Address.size, hlen⟩ :=
      ofBytes?_eq_some_iff.mpr rfl
    have hrest : n * Address.size ≤ (b.drop Address.size).length := by
      rw [List.length_drop]
      omega
    have hshift : ∀ k, (b.drop Address.size).drop (k * Address.size)
        = b.drop ((k + 1) * Address.size) := by
      intro k
      rw [List.drop_drop, Nat.succ_mul, Nat.add_comm]
    rw [addresses, hfirst, List.mem_cons, ih hrest]
    refine ⟨?_, ?_⟩
    · intro hx
      rcases hx with rfl | ⟨k, hk, ha⟩
      · exact ⟨0, by omega, by rw [Nat.zero_mul, List.drop_zero]⟩
      · exact ⟨k + 1, by omega, by rw [← hshift k]; exact ha⟩
    · intro hx
      obtain ⟨k, hk, ha⟩ := hx
      cases k with
      | zero =>
        rw [Nat.zero_mul, List.drop_zero] at ha
        refine Or.inl ?_
        cases a
        subst ha
        rfl
      | succ k => exact Or.inr ⟨k, by omega, by rw [hshift k]; exact ha⟩

/-- **A set holds the addresses that stand at multiples of twenty**, and nothing else. -/
theorem mem_decodeSet {b : Bytes} {a : Address} : a ∈ decodeSet b ↔ HasChunk b a := by
  have hpos : 0 < Address.size := by decide
  rw [decodeSet, AddressSet.mem_ofList, mem_addresses (Nat.div_mul_le_self _ _)]
  refine ⟨?_, ?_⟩
  · intro h
    obtain ⟨k, -, ha⟩ := h
    exact ⟨k, ha⟩
  · intro h
    obtain ⟨k, ha⟩ := h
    -- A whole address fits behind the `k` before it.
    have hlen : ((b.drop (k * Address.size)).take Address.size).length = 20 := by
      rw [ha]
      exact a.length_eq
    have hsize : Address.size = 20 := rfl
    rw [List.length_take, List.length_drop] at hlen
    have hk : (k + 1) * Address.size ≤ b.length := by
      rw [Nat.succ_mul]
      omega
    exact ⟨k, (Nat.le_div_iff_mul_le hpos).mpr hk, ha⟩

/-! ### The lists of a snapshot -/

/-- What entries say about lists. -/
structure Means (es : List Entry) (lists : NamedLists) : Prop where
  /-- The names are those that occur. -/
  names : ∀ name, lists.contains name = true ↔ ∃ e ∈ es, e.name = name
  /-- The last entry with a name has the list, and none before it has a share in it. -/
  last : ∀ fs e gs, es = fs ++ e :: gs → (∀ g ∈ gs, g.name ≠ e.name) →
    ∃ s, lists.get? e.name = some s ∧ ∀ a, a ∈ s ↔ HasChunk e.set a

theorem get?_of_last {fs gs : List Entry} {e : Entry} (h : ∀ g ∈ gs, g.name ≠ e.name) :
    (Table.ofList ((fs ++ e :: gs).map Entry.value)).get? e.name = some (decodeSet e.set) := by
  rw [List.map_append, List.map_cons]
  refine Table.get?_insertAll_of_last ?_
  intro v hv
  obtain ⟨g, hg, rfl⟩ := List.mem_map.mp hv
  exact h g hg

theorem get?_of_not_occurring {es : List Entry} {name : String} (h : ¬∃ e ∈ es, e.name = name) :
    (Table.ofList (es.map Entry.value)).get? name = none := by
  refine (Table.get?_insertAll_of_ne ?_).trans Table.get?_empty
  intro v hv
  obtain ⟨e, he, rfl⟩ := List.mem_map.mp hv
  exact fun hname => h ⟨e, he, hname⟩

theorem means_ofList (es : List Entry) : Means es (Table.ofList (es.map Entry.value)) := by
  refine ⟨fun name => ?_, ?_⟩
  · rw [Table.contains_iff]
    refine ⟨?_, ?_⟩
    · intro h
      obtain ⟨s, hs⟩ := h
      by_cases hname : ∃ e ∈ es, e.name = name
      · exact hname
      · rw [get?_of_not_occurring hname] at hs
        cases hs
    · intro hname
      obtain ⟨fs, e, gs, rfl, rfl, hgs⟩ := Table.exists_last hname
      exact ⟨_, get?_of_last hgs⟩
  · rintro fs e gs rfl hgs
    exact ⟨_, get?_of_last hgs, fun a => mem_decodeSet⟩

/-- Entries say one thing only. -/
theorem means_iff {es : List Entry} {lists : NamedLists} :
    Means es lists ↔ lists = Table.ofList (es.map Entry.value) := by
  refine ⟨?_, ?_⟩
  · intro h
    refine Table.ext fun name => ?_
    by_cases hname : ∃ e ∈ es, e.name = name
    · obtain ⟨fs, e, gs, rfl, rfl, hgs⟩ := Table.exists_last hname
      obtain ⟨s, hs, hmem⟩ := h.last fs e gs rfl hgs
      rw [hs, get?_of_last hgs]
      refine congrArg some (AddressSet.ext fun a => ?_)
      rw [hmem, mem_decodeSet]
    · rw [get?_of_not_occurring hname]
      cases hg : lists.get? name with
      | none => rfl
      | some s => exact absurd ((h.names name).mp (Table.contains_iff.mpr ⟨s, hg⟩)) hname
  · intro hx
    subst hx
    exact means_ofList es

/-- **Bytes are read as lists if and only if they are laid out as entries that mean these
lists**, and whatever is laid out as entries is read. -/
theorem decode_eq_ok_iff_means (b : Bytes) (lists : NamedLists) :
    (decode b = .ok lists ↔ ∃ (es : List Entry) (rest : Bytes),
      es.length < Word.bound ∧ b = layout es rest ∧ Means es lists) ∧
    ((∃ lists', decode b = .ok lists') ↔ ∃ (es : List Entry) (rest : Bytes),
      es.length < Word.bound ∧ b = layout es rest) := by
  refine ⟨?_, ?_⟩
  · rw [decode_eq_ok_iff]
    refine ⟨?_, ?_⟩
    · intro hx
      obtain ⟨es, rest, hes, hb, hlists⟩ := hx
      exact ⟨es, rest, hes, hb, means_iff.mpr hlists⟩
    · intro hx
      obtain ⟨es, rest, hes, hb, hmeans⟩ := hx
      exact ⟨es, rest, hes, hb, means_iff.mp hmeans⟩
  · constructor
    · intro hx
      obtain ⟨lists', h⟩ := hx
      obtain ⟨es, rest, hes, hb, -⟩ := decode_eq_ok_iff.mp h
      exact ⟨es, rest, hes, hb⟩
    · intro hx
      obtain ⟨es, rest, hes, rfl⟩ := hx
      exact ⟨_, decode_layout hes rest⟩

end Snapshot

end ProposerBook
