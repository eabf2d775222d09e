/-
What the reader of snapshots accepts, stated against the layout.

An `Entry` is one list as it stands in a snapshot: a name, and the bytes of a set, which
need not make up whole addresses.  Its lengths fit into words by construction, so an
entry is written as `Entry.bytes` without a condition, and `layout` writes a whole
snapshot with whatever comes after it.

The reader is a chain of four reads for each entry, and each read either takes exactly
what is announced off the front or fails.  So the lemmas below go read by read, each an
equivalence: reading yields this and leaves that if and only if the bytes are the one
followed by the other.  `decode_eq_ok_iff` is their sum, and nothing after it looks into
the reader again.
-/
import ProposerBook.Proofs.Outcome
import ProposerBook.Proofs.Word
import ProposerBook.Screening.Snapshot

namespace ProposerBook

namespace Snapshot

/-- One list as it stands in a snapshot. -/
structure Entry where
  name : String
  set : Bytes
  name_fits : (Bytes.ofString name).length < Word.bound
  set_fits : set.length < Word.bound

namespace Entry

/-- How an entry is written. -/
def bytes (e : Entry) : Bytes :=
  Word.encode (Bytes.ofString e.name).length ++ (Bytes.ofString e.name
    ++ (Word.encode e.set.length ++ e.set))

/-- The list that an entry stands for. -/
def value (e : Entry) : String × AddressSet := (e.name, decodeSet e.set)

end Entry

/-- A count, as many entries, and what comes after them. -/
def layout (es : List Entry) (rest : Bytes) : Bytes :=
  Word.encode es.length ++ (es.flatMap Entry.bytes ++ rest)

/-! ### One read after the other -/

variable {f : Field} {i n : Nat} {b x rest : Bytes}

theorem take_eq_ok_iff : take f n b = .ok (x, rest) ↔ x.length = n ∧ b = x ++ rest := by
  unfold take
  refine ⟨?_, ?_⟩
  · intro h
    split at h
    · rename_i hn
      cases h
      exact ⟨List.length_take_of_le hn, (List.take_append_drop n b).symm⟩
    · cases h
  · intro hx
    obtain ⟨rfl, rfl⟩ := hx
    rw [if_pos (by simp), List.take_left, List.drop_left]

theorem takeLength_eq_ok_iff :
    takeLength f b = .ok (n, rest) ↔ n < Word.bound ∧ b = Word.encode n ++ rest := by
  unfold takeLength
  rw [bind_eq_ok_iff]
  refine ⟨?_, ?_⟩
  · intro hx
    obtain ⟨⟨w, after⟩, hw, h⟩ := hx
    obtain ⟨hlen, rfl⟩ := take_eq_ok_iff.mp hw
    cases h
    exact ⟨Word.decode_lt_bound hlen, by rw [Word.encode_decode hlen]⟩
  · intro hx
    obtain ⟨hn, rfl⟩ := hx
    refine ⟨(Word.encode n, rest), take_eq_ok_iff.mpr ⟨Word.length_encode n, rfl⟩, ?_⟩
    show Except.ok (Word.decode (Word.encode n), rest) = _
    rw [Word.decode_encode hn]

/-- The four reads of an entry find their parts one after the other. -/
theorem takeEntry_bytes (i : Nat) (e : Entry) (rest : Bytes) :
    takeEntry i (e.bytes ++ rest) = .ok (e.value, rest) := by
  have hb : e.bytes ++ rest = Word.encode (Bytes.ofString e.name).length
      ++ (Bytes.ofString e.name ++ (Word.encode e.set.length ++ (e.set ++ rest))) := by
    simp only [Entry.bytes, List.append_assoc]
  rw [hb]
  unfold takeEntry
  refine bind_eq_ok_iff.mpr ⟨_, takeLength_eq_ok_iff.mpr ⟨e.name_fits, rfl⟩, ?_⟩
  refine bind_eq_ok_iff.mpr ⟨(Bytes.ofString e.name, _), take_eq_ok_iff.mpr ⟨rfl, rfl⟩, ?_⟩
  dsimp only
  rw [Bytes.toString?_ofString]
  refine bind_eq_ok_iff.mpr ⟨_, takeLength_eq_ok_iff.mpr ⟨e.set_fits, rfl⟩, ?_⟩
  exact bind_eq_ok_iff.mpr ⟨(e.set, rest), take_eq_ok_iff.mpr ⟨rfl, rfl⟩, rfl⟩

theorem takeEntry_eq_ok_iff {v : String × AddressSet} :
    takeEntry i b = .ok (v, rest) ↔ ∃ e : Entry, v = e.value ∧ b = e.bytes ++ rest := by
  refine ⟨?_, ?_⟩
  · intro h
    unfold takeEntry at h
    obtain ⟨⟨nameLength, b₁⟩, h₁, hlength⟩ := bind_eq_ok_iff.mp h
    obtain ⟨hn, rfl⟩ := takeLength_eq_ok_iff.mp h₁
    obtain ⟨⟨name, b₂⟩, h₂, hname⟩ := bind_eq_ok_iff.mp hlength
    obtain ⟨rfl, rfl⟩ := take_eq_ok_iff.mp h₂
    dsimp only at hname
    cases hs : name.toString? with
    | none =>
      rw [hs] at hname
      cases hname
    | some s =>
      rw [hs] at hname
      obtain rfl := Bytes.eq_ofString_of_toString? hs
      obtain ⟨⟨setLength, b₃⟩, h₃, hset⟩ := bind_eq_ok_iff.mp hname
      obtain ⟨hm, rfl⟩ := takeLength_eq_ok_iff.mp h₃
      obtain ⟨⟨set, b₄⟩, h₄, hend⟩ := bind_eq_ok_iff.mp hset
      obtain ⟨rfl, rfl⟩ := take_eq_ok_iff.mp h₄
      cases hend
      refine ⟨⟨s, set, hn, hm⟩, rfl, ?_⟩
      simp only [Entry.bytes, List.append_assoc]
  · intro hx
    obtain ⟨e, rfl, rfl⟩ := hx
    exact takeEntry_bytes i e rest

theorem takeEntries_bytes (i : Nat) (es : List Entry) (rest : Bytes) :
    takeEntries i es.length (es.flatMap Entry.bytes ++ rest) = .ok (es.map Entry.value, rest) := by
  induction es generalizing i with
  | nil => rfl
  | cons e es ih =>
    rw [List.flatMap_cons, List.append_assoc]
    show takeEntries i (es.length + 1) _ = _
    unfold takeEntries
    refine bind_eq_ok_iff.mpr ⟨_, takeEntry_bytes i e _, ?_⟩
    exact bind_eq_ok_iff.mpr ⟨_, ih (i + 1), rfl⟩

theorem takeEntries_eq_ok_iff {vs : List (String × AddressSet)} :
    takeEntries i n b = .ok (vs, rest) ↔
      ∃ es : List Entry, es.length = n ∧ vs = es.map Entry.value ∧
        b = es.flatMap Entry.bytes ++ rest := by
  refine ⟨?_, ?_⟩
  · intro h
    induction n generalizing i b vs with
    | zero =>
      cases h
      exact ⟨[], rfl, rfl, rfl⟩
    | succ n ih =>
      unfold takeEntries at h
      obtain ⟨⟨v, b₁⟩, h₁, hmore⟩ := bind_eq_ok_iff.mp h
      obtain ⟨e, rfl, rfl⟩ := takeEntry_eq_ok_iff.mp h₁
      obtain ⟨⟨vs', b₂⟩, h₂, hend⟩ := bind_eq_ok_iff.mp hmore
      cases hend
      obtain ⟨es, rfl, rfl, rfl⟩ := ih h₂
      exact ⟨e :: es, rfl, rfl, by rw [List.flatMap_cons, List.append_assoc]⟩
  · intro hx
    obtain ⟨es, rfl, rfl, rfl⟩ := hx
    exact takeEntries_bytes i es rest

theorem decode_layout {es : List Entry} (h : es.length < Word.bound) (rest : Bytes) :
    decode (layout es rest) = .ok (Table.ofList (es.map Entry.value)) := by
  unfold decode
  refine bind_eq_ok_iff.mpr ⟨_, takeLength_eq_ok_iff.mpr ⟨h, rfl⟩, ?_⟩
  exact bind_eq_ok_iff.mpr ⟨_, takeEntries_bytes 0 es rest, rfl⟩

/-- **Reading succeeds exactly on layouts**, and then yields the lists of their entries, of which
the later ones count. -/
theorem decode_eq_ok_iff {lists : NamedLists} :
    decode b = .ok lists ↔ ∃ (es : List Entry) (rest : Bytes), es.length < Word.bound ∧
      b = layout es rest ∧ lists = Table.ofList (es.map Entry.value) := by
  refine ⟨?_, ?_⟩
  · intro h
    unfold decode at h
    obtain ⟨⟨count, b₁⟩, h₁, hentries⟩ := bind_eq_ok_iff.mp h
    obtain ⟨hcount, rfl⟩ := takeLength_eq_ok_iff.mp h₁
    obtain ⟨⟨vs, rest⟩, h₂, hend⟩ := bind_eq_ok_iff.mp hentries
    obtain ⟨es, rfl, rfl, rfl⟩ := takeEntries_eq_ok_iff.mp h₂
    cases hend
    exact ⟨es, rest, hcount, rfl, rfl⟩
  · intro hx
    obtain ⟨es, rest, hcount, rfl, rfl⟩ := hx
    exact decode_layout hcount rest

end Snapshot

end ProposerBook
