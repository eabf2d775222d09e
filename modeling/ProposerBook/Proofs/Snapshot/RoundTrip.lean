/-
What is written is read back.

Nobody promises in which order the lists are written, nor in which order the members of
one of them are.  So the statement is about any arrangement: the lists in some order,
each with its members in some order.  Reading one yields the lists again, whatever bytes
follow, because a set made from its members and a table made from its entries do not
depend on the order.

The lengths must fit into words, or they are not written as they are.
-/
import Mathlib.Data.List.Forall2
import ProposerBook.Proofs.AddressSet
import ProposerBook.Proofs.Snapshot.Layout
import ProposerBook.Proofs.Table

namespace ProposerBook

namespace Snapshot

/-! ### Addresses back to back -/

theorem length_encodeAddresses (as : List Address) :
    (encodeAddresses as).length = as.length * Address.size := by
  induction as with
  | nil => rfl
  | cons a as ih =>
    have ha : a.bytes.length = Address.size := a.length_eq
    show (a.bytes ++ encodeAddresses as).length = (as.length + 1) * Address.size
    rw [List.length_append, ih, ha, Nat.succ_mul, Nat.add_comm]

theorem addresses_encodeAddresses (as : List Address) :
    addresses as.length (encodeAddresses as) = as := by
  induction as with
  | nil => rfl
  | cons a as ih =>
    have htake : (a.bytes ++ encodeAddresses as).take Address.size = a.bytes :=
      List.take_left' a.length_eq
    have hdrop : (a.bytes ++ encodeAddresses as).drop Address.size = encodeAddresses as :=
      List.drop_left' a.length_eq
    have ha : Address.ofBytes? a.bytes = some a := dif_pos a.length_eq
    show addresses (as.length + 1) (a.bytes ++ encodeAddresses as) = a :: as
    rw [addresses, htake, hdrop, ha, ih]

theorem decodeSet_encodeAddresses (as : List Address) :
    decodeSet (encodeAddresses as) = AddressSet.ofList as := by
  have hlen : (encodeAddresses as).length / Address.size = as.length := by
    rw [length_encodeAddresses]
    exact Nat.mul_div_cancel _ (by decide)
  rw [decodeSet, hlen, addresses_encodeAddresses]

/-! ### Lists in the order given -/

/-- The lengths of a name and of a set of addresses fit into words. -/
def EntryFits (e : String × List Address) : Prop :=
  (Bytes.ofString e.1).length < Word.bound ∧ (encodeAddresses e.2).length < Word.bound

/-- What is written of lists is laid out as entries. -/
theorem exists_entries {es : List (String × List Address)} (h : ∀ e ∈ es, EntryFits e) :
    ∃ fs : List Entry, fs.length = es.length ∧ fs.flatMap Entry.bytes = es.flatMap encodeEntry ∧
      fs.map Entry.value = es.map fun e => (e.1, AddressSet.ofList e.2) := by
  induction es with
  | nil => exact ⟨[], rfl, rfl, rfl⟩
  | cons e es ih =>
    obtain ⟨fs, hlen, hbytes, hvalue⟩ := ih fun e' he' => h e' (List.mem_cons_of_mem _ he')
    obtain ⟨hname, hset⟩ := h e List.mem_cons_self
    refine ⟨⟨e.1, encodeAddresses e.2, hname, hset⟩ :: fs, ?_, ?_, ?_⟩
    · rw [List.length_cons, List.length_cons, hlen]
    · rw [List.flatMap_cons, List.flatMap_cons, hbytes]
      simp only [Entry.bytes, encodeEntry, List.append_assoc]
    · rw [List.map_cons, List.map_cons, hvalue]
      show (e.1, decodeSet (encodeAddresses e.2)) :: _ = _
      rw [decodeSet_encodeAddresses]

/-- What is written is read back, repeated names and addresses included. -/
theorem decode_encodeInOrder_append {es : List (String × List Address)}
    (hcount : es.length < Word.bound) (h : ∀ e ∈ es, EntryFits e) (rest : Bytes) :
    decode (encodeInOrder es ++ rest)
      = .ok (Table.ofList (es.map fun e => (e.1, AddressSet.ofList e.2))) := by
  obtain ⟨fs, hlen, hbytes, hvalue⟩ := exists_entries h
  have hlayout : encodeInOrder es ++ rest = layout fs rest := by
    rw [encodeInOrder, layout, hlen, hbytes, List.append_assoc]
  rw [hlayout, decode_layout (by rw [hlen]; exact hcount), hvalue]

/-! ### Any arrangement of the lists -/

/-- The lists in some order, each with its members in some order. -/
def Arranges (lists : NamedLists) (es : List (String × List Address)) : Prop :=
  ∃ order : List (String × AddressSet), order.Perm lists.entries ∧
    List.Forall₂ (fun e l => e.1 = l.1 ∧ e.2.Perm l.2.members) es order

/-- The count and all lengths fit into words. -/
structure Fits (lists : NamedLists) : Prop where
  count : lists.size < Word.bound
  names : ∀ e ∈ lists.entries, (Bytes.ofString e.1).length < Word.bound
  sets : ∀ e ∈ lists.entries, setLength e.2 < Word.bound

/-- Sets made from members in any order are the sets they are the members of. -/
theorem map_ofList_eq {es : List (String × List Address)} {order : List (String × AddressSet)}
    (h : List.Forall₂ (fun e l => e.1 = l.1 ∧ e.2.Perm l.2.members) es order) :
    (es.map fun e => (e.1, AddressSet.ofList e.2)) = order := by
  induction h with
  | nil => rfl
  | @cons e l es order hel _ ih =>
    obtain ⟨hname, hperm⟩ := hel
    rw [List.map_cons, ih, hname, AddressSet.ofList_of_perm hperm]

theorem entryFits_of_arranges {lists : NamedLists} {es : List (String × List Address)}
    (fits : Fits lists) (h : Arranges lists es) : ∀ e ∈ es, EntryFits e := by
  obtain ⟨order, hperm, hall⟩ := h
  intro e he
  obtain ⟨l, hl, hname, hmembers⟩ := exists_of_mem_forall₂ hall he
  have hmem : l ∈ lists.entries := hperm.mem_iff.mp hl
  have hset : (encodeAddresses e.2).length = setLength l.2 := by
    rw [length_encodeAddresses, hmembers.length_eq]
    rfl
  exact ⟨by rw [hname]; exact fits.names l hmem, by rw [hset]; exact fits.sets l hmem⟩

/-! ### How long the writing is -/

theorem length_encodeEntry (e : String × List Address) : (encodeEntry e).length
    = Word.size + (Bytes.ofString e.1).length + Word.size + e.2.length * Address.size := by
  simp only [encodeEntry, List.length_append, Word.length_encode, length_encodeAddresses]

theorem length_encode (lists : NamedLists) : (encode lists).length = encodedLength lists := by
  have hfold : ∀ (ls : List (String × AddressSet)) (n : Nat),
      n + ((ls.map fun l => (l.1, l.2.members)).flatMap encodeEntry).length = ls.foldl
        (fun n e => n + Word.size + (Bytes.ofString e.1).length + Word.size + setLength e.2) n := by
    intro ls
    induction ls with
    | nil => intro n; rfl
    | cons l ls ih =>
      intro n
      rw [List.foldl_cons, ← ih, List.map_cons, List.flatMap_cons, List.length_append,
        length_encodeEntry]
      show n + (Word.size + (Bytes.ofString l.1).length + Word.size + setLength l.2 + _)
        = n + Word.size + (Bytes.ofString l.1).length + Word.size + setLength l.2 + _
      omega
  rw [encode, encodeInOrder, List.length_append, Word.length_encode, encodedLength]
  exact hfold lists.entries Word.size

/-- The order has no bearing on the length. -/
theorem length_encodeInOrder {lists : NamedLists} {es : List (String × List Address)}
    (h : Arranges lists es) : (encodeInOrder es).length = encodedLength lists := by
  obtain ⟨order, hperm, hall⟩ := h
  have hlen : (es.flatMap encodeEntry).length
      = (order.flatMap fun l => encodeEntry (l.1, l.2.members)).length := by
    clear hperm
    induction hall with
    | nil => rfl
    | @cons e l es order hel _ ih =>
      rw [List.flatMap_cons, List.flatMap_cons, List.length_append, List.length_append, ih,
        length_encodeEntry, length_encodeEntry, hel.1, hel.2.length_eq]
  have hsame : (order.flatMap fun l => encodeEntry (l.1, l.2.members)).length
      = (lists.entries.flatMap fun l => encodeEntry (l.1, l.2.members)).length :=
    (hperm.flatMap_right _).length_eq
  rw [← length_encode, encode, encodeInOrder, encodeInOrder, List.length_append, hlen, hsame,
    List.flatMap_map, List.length_append, Word.length_encode, Word.length_encode]

/-- However lists are arranged, they are read back, whatever follows. -/
theorem decode_encodeInOrder_of_arranges {lists : NamedLists} {es : List (String × List Address)}
    (fits : Fits lists) (h : Arranges lists es) (rest : Bytes) :
    decode (encodeInOrder es ++ rest) = .ok lists := by
  have hfits := entryFits_of_arranges fits h
  obtain ⟨order, hperm, hall⟩ := h
  have hcount : es.length < Word.bound := by
    rw [hall.length_eq, hperm.length_eq]
    exact fits.count
  rw [decode_encodeInOrder_append hcount hfits, map_ofList_eq hall, Table.ofList_of_perm hperm]

/-- **However lists are arranged, they take as many bytes as foretold and are read back**, whatever
follows. -/
theorem decode_arranged {lists : NamedLists} {es : List (String × List Address)}
    (fits : Fits lists) (h : Arranges lists es) (rest : Bytes) :
    (encodeInOrder es).length = encodedLength lists ∧
      decode (encodeInOrder es ++ rest) = .ok lists :=
  ⟨length_encodeInOrder h, decode_encodeInOrder_of_arranges fits h rest⟩

/-- Two lists, the names and the members of one written in descending order, and a byte more. -/
theorem decode_arranged_descending :
    let low : Address := ⟨List.replicate 20 1, rfl⟩
    let high : Address := ⟨List.replicate 20 2, rfl⟩
    let lists := Table.ofList [("", {}), ("ofac", AddressSet.ofList [low, high])]
    let es := [("ofac", [high, low]), ("", [])]
    Fits lists ∧ Arranges lists es ∧ (encodeInOrder es).length = encodedLength lists ∧
      decode (encodeInOrder es ++ [7]) = .ok lists := by
  intro low high lists es
  have fits : Fits lists := by
    refine ⟨by decide, ?_, ?_⟩ <;> decide
  have arranged : Arranges lists es := by
    have hentries : lists.entries = [("", {}), ("ofac", AddressSet.ofList [low, high])] := by decide
    refine ⟨[("ofac", AddressSet.ofList [low, high]), ("", {})], ?_, ?_⟩
    · rw [hentries]
      exact List.Perm.swap _ _ _
    · exact .cons ⟨rfl, List.Perm.swap _ _ _⟩ (.cons ⟨rfl, .refl _⟩ .nil)
  exact ⟨fits, arranged, decode_arranged fits arranged [7]⟩

end Snapshot

end ProposerBook
