/-
Reading and writing again never needs more bytes.

Bytes that are read are laid out as entries, and every byte of a layout is accounted for: the
lengths, the names and the sets of its entries, and what follows them.  Of the lists that are
read, a name counts once although it may come several times, an address counts once within its
list, and bytes that make up no address do not count.  So the lists take at most as many bytes
as there were, by comparing the two sums entry by entry.

Where the sums are equal nothing of this kind can have happened (`Tight`), and then the entries
are the lists themselves in some order, each with its addresses in some order: the bytes are
what is written when the lists are arranged like this.
-/
import ProposerBook.Proofs.Snapshot.RoundTrip

namespace ProposerBook

namespace Snapshot

/-! ### The addresses of an entry -/

theorem length_addresses {n : Nat} {b : Bytes} (h : n * Address.size ≤ b.length) :
    (addresses n b).length = n := by
  induction n generalizing b with
  | zero => rfl
  | succ n ih =>
    have hsize : (n + 1) * Address.size = n * Address.size + Address.size := Nat.succ_mul _ _
    have hfirst : (b.take Address.size).length = 20 := List.length_take_of_le (by omega)
    have hrest : n * Address.size ≤ (b.drop Address.size).length := by
      rw [List.length_drop]
      omega
    have ha : Address.ofBytes? (b.take Address.size) = some ⟨_, hfirst⟩ := dif_pos hfirst
    rw [addresses, ha, List.length_cons, ih hrest]

/-- Addresses that have been read are written as the bytes that they were read from. -/
theorem encodeAddresses_addresses {n : Nat} {b : Bytes} (h : b.length = n * Address.size) :
    encodeAddresses (addresses n b) = b := by
  induction n generalizing b with
  | zero =>
    rw [Nat.zero_mul] at h
    rw [List.eq_nil_of_length_eq_zero h]
    rfl
  | succ n ih =>
    have hsize : (n + 1) * Address.size = n * Address.size + Address.size := Nat.succ_mul _ _
    have hfirst : (b.take Address.size).length = 20 := List.length_take_of_le (by omega)
    have hrest : (b.drop Address.size).length = n * Address.size := by
      rw [List.length_drop]
      omega
    have ha : Address.ofBytes? (b.take Address.size) = some ⟨_, hfirst⟩ := dif_pos hfirst
    rw [addresses, ha]
    show b.take Address.size ++ encodeAddresses (addresses n (b.drop Address.size)) = b
    rw [ih hrest, List.take_append_drop]

namespace Entry

/-- The whole addresses in the set of an entry, in the order in which they stand there. -/
def addresses (e : Entry) : List Address :=
  Snapshot.addresses (e.set.length / Address.size) e.set

variable (e : Entry)

theorem length_addresses : e.addresses.length = e.set.length / Address.size :=
  Snapshot.length_addresses (Nat.div_mul_le_self _ _)

theorem encodeAddresses_addresses {e : Entry} (whole : Address.size ∣ e.set.length) :
    encodeAddresses e.addresses = e.set :=
  Snapshot.encodeAddresses_addresses (Nat.div_mul_cancel whole).symm

theorem length_bytes : e.bytes.length =
    Word.size + (Bytes.ofString e.name).length + Word.size + e.set.length := by
  simp only [bytes, List.length_append, Word.length_encode]
  omega

/-- A set takes no more bytes than it was read from. -/
theorem setLength_le : setLength (decodeSet e.set) ≤ e.set.length := by
  have hsize : (decodeSet e.set).size ≤ e.set.length / Address.size := by
    rw [← e.length_addresses]
    exact AddressSet.size_ofList_le e.addresses
  exact Nat.le_trans (Nat.mul_le_mul_right _ hsize) (Nat.div_mul_le_self _ _)

/-- It takes as many just if it is made up of addresses no two of which are equal. -/
theorem setLength_eq_iff : setLength (decodeSet e.set) = e.set.length ↔
    Address.size ∣ e.set.length ∧ e.addresses.Nodup := by
  have hpos : 0 < Address.size := by decide
  rw [← AddressSet.size_ofList_eq_iff, e.length_addresses]
  refine ⟨?_, ?_⟩
  · intro h
    refine ⟨⟨_, h.symm.trans (Nat.mul_comm _ _)⟩, ?_⟩
    exact (Nat.div_eq_of_eq_mul_left hpos h.symm).symm
  · rintro ⟨whole, hsize⟩
    show (AddressSet.ofList e.addresses).size * Address.size = _
    rw [hsize, Nat.div_mul_cancel whole]

end Entry

/-! ### Where the bytes go -/

/-- How many bytes one of the lists takes. -/
def listLength (l : String × AddressSet) : Nat :=
  Word.size + (Bytes.ofString l.1).length + Word.size + setLength l.2

theorem encodedLength_eq (lists : NamedLists) :
    encodedLength lists = Word.size + lists.weight listLength := by
  have hfold : ∀ (ls : List (String × AddressSet)) (n : Nat), ls.foldl
      (fun n e => n + Word.size + (Bytes.ofString e.1).length + Word.size + setLength e.2) n =
      n + (ls.map listLength).sum := by
    intro ls
    induction ls with
    | nil => intro n; rfl
    | cons l ls ih =>
      intro n
      rw [List.foldl_cons, ih, List.map_cons, List.sum_cons]
      show _ = n + (Word.size + (Bytes.ofString l.1).length + Word.size + setLength l.2 + _)
      omega
  exact hfold lists.entries Word.size

theorem length_layout (es : List Entry) (rest : Bytes) : (layout es rest).length =
    Word.size + (es.map fun e => e.bytes.length).sum + rest.length := by
  simp only [layout, List.length_append, Word.length_encode, List.length_flatMap]
  omega

/-- Nothing follows the entries, no name comes twice, and every set is made up of addresses no two
of which are equal. -/
structure Tight (es : List Entry) (rest : Bytes) : Prop where
  ended : rest = []
  names : (es.map Entry.name).Nodup
  whole : ∀ e ∈ es, Address.size ∣ e.set.length
  addresses : ∀ e ∈ es, e.addresses.Nodup

theorem listLength_value_le (e : Entry) : listLength e.value ≤ e.bytes.length := by
  have hset := e.setLength_le
  rw [e.length_bytes]
  show Word.size + (Bytes.ofString e.name).length + Word.size + setLength (decodeSet e.set) ≤ _
  omega

theorem listLength_value_eq_iff (e : Entry) : listLength e.value = e.bytes.length ↔
    Address.size ∣ e.set.length ∧ e.addresses.Nodup := by
  rw [← e.setLength_eq_iff, e.length_bytes]
  show Word.size + (Bytes.ofString e.name).length + Word.size + setLength (decodeSet e.set) = _ ↔ _
  omega

/-- Of two sums whose terms go up, one is no more than the other, and as much just if all its terms
are. -/
theorem sum_le_and_eq_iff {α : Type} {f g : α → Nat} (xs : List α) (h : ∀ x ∈ xs, f x ≤ g x) :
    (xs.map f).sum ≤ (xs.map g).sum ∧
      ((xs.map f).sum = (xs.map g).sum ↔ ∀ x ∈ xs, f x = g x) := by
  induction xs with
  | nil => simp
  | cons x xs ih =>
    obtain ⟨hle, hiff⟩ := ih fun y hy => h y (List.mem_cons_of_mem _ hy)
    have hx := h x List.mem_cons_self
    simp only [List.map_cons, List.sum_cons, List.forall_mem_cons, ← hiff]
    omega

theorem weight_le (es : List Entry) : (Table.ofList (es.map Entry.value)).weight listLength ≤
    (es.map fun e => listLength e.value).sum := by
  have hle := Table.weight_ofList_le (w := listLength) (es.map Entry.value)
  rwa [List.map_map] at hle

theorem weight_eq_iff (es : List Entry) : (Table.ofList (es.map Entry.value)).weight listLength =
    (es.map fun e => listLength e.value).sum ↔ (es.map Entry.name).Nodup := by
  have hpositive : ∀ l, 0 < listLength l := by
    intro l
    have hsize : Word.size = 8 := rfl
    unfold listLength
    omega
  have hiff : (Table.ofList (es.map Entry.value)).weight listLength = _ ↔ _ :=
    Table.weight_ofList_eq_iff hpositive
  rwa [List.map_map, List.map_map] at hiff

/-- The lists that are read take at most the bytes of the layout, and all of them just if it is
tight. -/
theorem encodedLength_layout (es : List Entry) (rest : Bytes) :
    encodedLength (Table.ofList (es.map Entry.value)) ≤ (layout es rest).length ∧
      (encodedLength (Table.ofList (es.map Entry.value)) = (layout es rest).length ↔
        Tight es rest) := by
  obtain ⟨hle, hsum⟩ := sum_le_and_eq_iff es fun e _ => listLength_value_le e
  have hweight := weight_le es
  have hnames := weight_eq_iff es
  rw [encodedLength_eq, length_layout]
  refine ⟨by omega, ?_, ?_⟩
  · intro h
    have hended : rest.length = 0 := by omega
    have hsets := hsum.mp (by omega)
    refine ⟨List.eq_nil_of_length_eq_zero hended, hnames.mp (by omega), ?_, ?_⟩
    · exact fun e he => ((listLength_value_eq_iff e).mp (hsets e he)).1
    · exact fun e he => ((listLength_value_eq_iff e).mp (hsets e he)).2
  · rintro ⟨rfl, names, whole, addresses⟩
    have hsets := hsum.mpr fun e he =>
      (listLength_value_eq_iff e).mpr ⟨whole e he, addresses e he⟩
    rw [hnames.mpr names, hsets]
    rfl

/-- A tight layout is written when the lists are arranged as they stand in it. -/
theorem exists_arrangement {es : List Entry} {rest : Bytes} (tight : Tight es rest) :
    ∃ as, Arranges (Table.ofList (es.map Entry.value)) as ∧ layout es rest = encodeInOrder as := by
  obtain ⟨rfl, names, whole, addresses⟩ := tight
  refine ⟨es.map fun e => (e.name, e.addresses), ⟨es.map Entry.value, ?_, ?_⟩, ?_⟩
  · refine (Table.perm_ofList ?_).symm
    rw [List.map_map]
    exact names
  · rw [List.forall₂_map_left_iff, List.forall₂_map_right_iff, List.forall₂_same]
    intro e he
    have hperm := AddressSet.perm_dedup e.addresses
    rw [(addresses e he).dedup] at hperm
    exact ⟨rfl, hperm.symm⟩
  · have hbytes : es.flatMap Entry.bytes =
        es.flatMap fun e => encodeEntry (e.name, e.addresses) := by
      refine List.flatMap_congr ?_
      intro e he
      simp only [Entry.bytes, encodeEntry, Entry.encodeAddresses_addresses (whole e he),
        List.append_assoc]
    rw [layout, encodeInOrder, List.append_nil, hbytes, List.length_map, List.flatMap_map]

/-- **Lists never take more bytes than they were read from**, and as many just if these bytes are
what is written of the lists in some arrangement.  Fewer of them are taken just if something
follows the entries, a set has bytes that make up no address, or an address within a list or a
name comes twice. -/
theorem encodedLength_le_of_decode {b : Bytes} {lists : NamedLists} (h : decode b = .ok lists) :
    encodedLength lists ≤ b.length ∧
    (encodedLength lists = b.length ↔ ∃ as, Arranges lists as ∧ b = encodeInOrder as) ∧
    ∃ (es : List Entry) (rest : Bytes), es.length < Word.bound ∧ b = layout es rest ∧
      (encodedLength lists < b.length ↔ rest ≠ [] ∨ (∃ e ∈ es, ¬Address.size ∣ e.set.length) ∨
        (∃ e ∈ es, ¬e.addresses.Nodup) ∨ ¬(es.map Entry.name).Nodup) := by
  obtain ⟨es, rest, hes, rfl, rfl⟩ := decode_eq_ok_iff.mp h
  obtain ⟨hle, hiff⟩ := encodedLength_layout es rest
  refine ⟨hle, ⟨?_, ?_⟩, es, rest, hes, rfl, ?_⟩
  · exact fun heq => exists_arrangement (hiff.mp heq)
  · rintro ⟨as, arranged, hwritten⟩
    rw [hwritten, length_encodeInOrder arranged]
  · have hlt : encodedLength (Table.ofList (es.map Entry.value)) < (layout es rest).length ↔
        ¬Tight es rest := by
      rw [← hiff]
      omega
    rw [hlt]
    refine ⟨?_, ?_⟩
    · intro loose
      by_contra hnone
      simp only [not_or, not_exists, not_and, not_not, ne_eq] at hnone
      obtain ⟨ended, whole, addresses, names⟩ := hnone
      exact loose ⟨ended, names, whole, addresses⟩
    · rintro (hrest | ⟨e, he, hwhole⟩ | ⟨e, he, haddresses⟩ | hnames) tight
      · exact hrest tight.ended
      · exact hwhole (tight.whole e he)
      · exact haddresses (tight.addresses e he)
      · exact hnames tight.names

/-- A list with an address that comes twice and three bytes more, the same name again, and a byte
behind. -/
theorem encodedLength_le_of_decode_loose :
    let a : Address := .repeated 7
    let first : Entry := ⟨"x", a.bytes ++ (a.bytes ++ [1, 2, 3]), by decide, by decide⟩
    let second : Entry := ⟨"x", a.bytes, by decide, by decide⟩
    let b := layout [first, second] [9]
    let lists := Table.ofList [("x", AddressSet.ofList [a])]
    decode b = .ok lists ∧ encodedLength lists = 45 ∧ b.length = 106 ∧
      (encodedLength lists ≤ b.length ∧
        (encodedLength lists = b.length ↔ ∃ as, Arranges lists as ∧ b = encodeInOrder as)) := by
  intro a first second b lists
  have hdecode : decode b = .ok lists := by
    have hlists : Table.ofList ([first, second].map Entry.value) = lists := by decide
    rw [← hlists]
    exact decode_layout (by decide) [9]
  obtain ⟨hle, hiff, -⟩ := encodedLength_le_of_decode hdecode
  exact ⟨hdecode, by decide, by decide, hle, hiff⟩

end Snapshot

end ProposerBook
