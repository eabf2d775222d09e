/-
What is wrong with bytes that are no snapshot.

Reading stops at the first part that is not there, so what it reports must be read off the
bytes in front of that part.  `Due` says which bytes these are: a beginning in good order, the
part that comes after it, and how many bytes have been announced for that part.  Every entry
before the one in question stands there in full, with a name that is UTF-8, because it is an
`Entry`.

`Faulty` then has two ways to go wrong.  Fewer bytes follow than are due, or the bytes of a name
follow and are not UTF-8; what comes after such a name has no bearing.  That reading fails in
these ways only goes along the reads, each of which leaves a longer beginning.  That it fails
whenever bytes are faulty goes back from the part in question to the count.
-/
import ProposerBook.Proofs.Snapshot.Layout

namespace ProposerBook

namespace Snapshot

/-- After these bytes, which begin a snapshot, comes this part, for which so many bytes are
announced. -/
inductive Due : Bytes → Field → Nat → Prop
  | count : Due [] .count Word.size
  | nameLength {n i : Nat} {es : List Entry} (fits : n < Word.bound) (more : i < n)
      (entries : es.length = i) :
    Due (Word.encode n ++ es.flatMap Entry.bytes) (.nameLength i) Word.size
  | name {front : Bytes} {i n : Nat} (length : Due front (.nameLength i) Word.size)
      (fits : n < Word.bound) : Due (front ++ Word.encode n) (.name i) n
  | setLength {front : Bytes} {i : Nat} {s : String}
      (name : Due front (.name i) (Bytes.ofString s).length) :
    Due (front ++ Bytes.ofString s) (.setLength i) Word.size
  | set {front : Bytes} {i n : Nat} (length : Due front (.setLength i) Word.size)
      (fits : n < Word.bound) : Due (front ++ Word.encode n) (.set i) n

/-- Bytes that are no snapshot, and what is wrong with them. -/
inductive Faulty : Bytes → DecodeError → Prop
  | truncated {front rest : Bytes} {f : Field} {n : Nat} (due : Due front f n)
      (short : rest.length < n) : Faulty (front ++ rest) (.truncated f n rest.length)
  | invalidName {front name rest : Bytes} {i : Nat} (due : Due front (.name i) name.length)
      (text : name.toString? = none) : Faulty (front ++ (name ++ rest)) (.invalidName i)

/-! ### Why a read fails -/

variable {f : Field} {i n : Nat} {b rest : Bytes} {e : DecodeError}

theorem take_eq_error_iff :
    take f n b = .error e ↔ b.length < n ∧ e = .truncated f n b.length := by
  unfold take
  by_cases hn : n ≤ b.length
  · simp [hn, Nat.not_lt_of_le hn]
  · simp [hn, Nat.lt_of_not_le hn, eq_comm]

theorem takeLength_eq_error_iff :
    takeLength f b = .error e ↔ b.length < Word.size ∧ e = .truncated f Word.size b.length := by
  unfold takeLength
  rw [bind_eq_error_iff, take_eq_error_iff]
  refine or_iff_left ?_
  rintro ⟨a, -, h⟩
  cases h

/-! ### What is reported is wrong -/

/-- Each of the four reads of an entry makes the beginning longer, until one fails. -/
theorem faulty_of_takeEntry {front : Bytes} (due : Due front (.nameLength i) Word.size)
    (h : takeEntry i b = .error e) : Faulty (front ++ b) e := by
  unfold takeEntry at h
  rcases bind_eq_error_iff.mp h with hshort | ⟨⟨nameLength, b₁⟩, hlength, hname⟩
  · obtain ⟨short, rfl⟩ := takeLength_eq_error_iff.mp hshort
    exact .truncated due short
  obtain ⟨fits, rfl⟩ := takeLength_eq_ok_iff.mp hlength
  have dueName := due.name fits
  rw [← List.append_assoc]
  rcases bind_eq_error_iff.mp hname with hshort | ⟨⟨name, b₂⟩, htaken, htext⟩
  · obtain ⟨short, rfl⟩ := take_eq_error_iff.mp hshort
    exact .truncated dueName short
  obtain ⟨rfl, rfl⟩ := take_eq_ok_iff.mp htaken
  dsimp only at htext
  cases hs : name.toString? with
  | none =>
    rw [hs] at htext
    cases htext
    exact .invalidName dueName hs
  | some s =>
    rw [hs] at htext
    obtain rfl := Bytes.eq_ofString_of_toString? hs
    have dueSetLength := dueName.setLength
    rw [← List.append_assoc]
    rcases bind_eq_error_iff.mp htext with hshort | ⟨⟨setLength, b₃⟩, hlength, hset⟩
    · obtain ⟨short, rfl⟩ := takeLength_eq_error_iff.mp hshort
      exact .truncated dueSetLength short
    obtain ⟨fits, rfl⟩ := takeLength_eq_ok_iff.mp hlength
    rw [← List.append_assoc]
    rcases bind_eq_error_iff.mp hset with hshort | ⟨⟨set, b₄⟩, -, hend⟩
    · obtain ⟨short, rfl⟩ := take_eq_error_iff.mp hshort
      exact .truncated (dueSetLength.set fits) short
    · cases hend

/-- The entries that have been read belong to the beginning. -/
theorem faulty_of_takeEntries {es : List Entry} {k : Nat} (fits : n < Word.bound)
    (counted : es.length + k = n) (h : takeEntries es.length k b = .error e) :
    Faulty (Word.encode n ++ (es.flatMap Entry.bytes ++ b)) e := by
  induction k generalizing es b with
  | zero => cases h
  | succ k ih =>
    unfold takeEntries at h
    rcases bind_eq_error_iff.mp h with hentry | ⟨⟨v, b₁⟩, hentry, hmore⟩
    · rw [← List.append_assoc]
      exact faulty_of_takeEntry (.nameLength fits (by omega) rfl) hentry
    · obtain ⟨e', -, rfl⟩ := takeEntry_eq_ok_iff.mp hentry
      have hlength : (es ++ [e']).length = es.length + 1 := List.length_append
      rcases bind_eq_error_iff.mp hmore with hmore | ⟨a, -, hend⟩
      · rw [← hlength] at hmore
        have hfaulty := ih (by omega) hmore
        simpa using hfaulty
      · cases hend

theorem faulty_of_decode (h : decode b = .error e) : Faulty b e := by
  unfold decode at h
  rcases bind_eq_error_iff.mp h with hshort | ⟨⟨count, b₁⟩, hcount, hentries⟩
  · obtain ⟨short, rfl⟩ := takeLength_eq_error_iff.mp hshort
    exact .truncated .count short
  · obtain ⟨fits, rfl⟩ := takeLength_eq_ok_iff.mp hcount
    rcases bind_eq_error_iff.mp hentries with hentries | ⟨a, -, hend⟩
    · show Faulty (Word.encode count ++ (([] : List Entry).flatMap Entry.bytes ++ b₁)) e
      exact faulty_of_takeEntries fits (Nat.zero_add _) hentries
    · cases hend

/-! ### What is wrong is reported -/

/-- Where an entry fails, so does the snapshot. -/
theorem decode_of_takeEntry {es : List Entry} (fits : n < Word.bound) (more : es.length < n)
    (h : takeEntry es.length b = .error e) :
    decode (Word.encode n ++ es.flatMap Entry.bytes ++ b) = .error e := by
  have hentries : ∀ (es : List Entry) (i k : Nat), es.length < k →
      takeEntry (i + es.length) b = .error e →
      takeEntries i k (es.flatMap Entry.bytes ++ b) = .error e := by
    intro es
    induction es with
    | nil =>
      intro i k hk hentry
      obtain ⟨k, rfl⟩ := Nat.exists_eq_add_one.mpr hk
      unfold takeEntries
      exact bind_eq_error_iff.mpr (Or.inl hentry)
    | cons e' es ih =>
      intro i k hk hentry
      obtain ⟨k, rfl⟩ := Nat.exists_eq_add_one.mpr (Nat.zero_lt_of_lt hk)
      rw [List.length_cons] at hk hentry
      rw [List.flatMap_cons, List.append_assoc]
      unfold takeEntries
      have hmore := ih (i + 1) k (by omega) (by rwa [Nat.add_right_comm])
      exact bind_eq_error_iff.mpr
        (Or.inr ⟨_, takeEntry_bytes i e' _, bind_eq_error_iff.mpr (Or.inl hmore)⟩)
  rw [List.append_assoc]
  unfold decode
  refine bind_eq_error_iff.mpr (Or.inr ⟨_, takeLength_eq_ok_iff.mpr ⟨fits, rfl⟩, ?_⟩)
  refine bind_eq_error_iff.mpr (Or.inl ?_)
  exact hentries es 0 n more (by rwa [Nat.zero_add])

section Entry

variable {s : String}

theorem takeEntry_of_name (fits : n < Word.bound) (h : take (.name i) n b = .error e) :
    takeEntry i (Word.encode n ++ b) = .error e := by
  unfold takeEntry
  refine bind_eq_error_iff.mpr (Or.inr ⟨_, takeLength_eq_ok_iff.mpr ⟨fits, rfl⟩, ?_⟩)
  exact bind_eq_error_iff.mpr (Or.inl h)

theorem takeEntry_of_invalidName {name : Bytes} (fits : name.length < Word.bound)
    (text : name.toString? = none) :
    takeEntry i (Word.encode name.length ++ (name ++ rest)) = .error (.invalidName i) := by
  unfold takeEntry
  refine bind_eq_error_iff.mpr (Or.inr ⟨_, takeLength_eq_ok_iff.mpr ⟨fits, rfl⟩, ?_⟩)
  refine bind_eq_error_iff.mpr (Or.inr ⟨(name, rest), take_eq_ok_iff.mpr ⟨rfl, rfl⟩, ?_⟩)
  dsimp only
  rw [text]

/-- Behind a name that is read, the set decides. -/
theorem takeEntry_of_text (fits : (Bytes.ofString s).length < Word.bound) :
    takeEntry i (Word.encode (Bytes.ofString s).length ++ (Bytes.ofString s ++ b)) = do
      let (n, b) ← takeLength (.setLength i) b
      let (set, b) ← take (.set i) n b
      return ((s, decodeSet set), b) := by
  have hlength : takeLength (.nameLength i)
      (Word.encode (Bytes.ofString s).length ++ (Bytes.ofString s ++ b)) =
        .ok ((Bytes.ofString s).length, Bytes.ofString s ++ b) :=
    takeLength_eq_ok_iff.mpr ⟨fits, rfl⟩
  have hname : take (.name i) (Bytes.ofString s).length (Bytes.ofString s ++ b) =
      .ok (Bytes.ofString s, b) := take_eq_ok_iff.mpr ⟨rfl, rfl⟩
  unfold takeEntry
  simp only [hlength, hname, bind, Except.bind, Bytes.toString?_ofString]

theorem takeEntry_of_setLength (fits : (Bytes.ofString s).length < Word.bound)
    (h : takeLength (.setLength i) b = .error e) :
    takeEntry i (Word.encode (Bytes.ofString s).length ++ (Bytes.ofString s ++ b)) =
      .error e := by
  rw [takeEntry_of_text fits]
  exact bind_eq_error_iff.mpr (Or.inl h)

theorem takeEntry_of_set (fitsName : (Bytes.ofString s).length < Word.bound)
    (fits : n < Word.bound) (h : take (.set i) n b = .error e) :
    takeEntry i (Word.encode (Bytes.ofString s).length ++
      (Bytes.ofString s ++ (Word.encode n ++ b))) = .error e := by
  rw [takeEntry_of_text fitsName]
  refine bind_eq_error_iff.mpr (Or.inr ⟨_, takeLength_eq_ok_iff.mpr ⟨fits, rfl⟩, ?_⟩)
  exact bind_eq_error_iff.mpr (Or.inl h)

end Entry

theorem decode_of_faulty (h : Faulty b e) : decode b = .error e := by
  cases h with
  | @truncated front rest f n due short =>
    cases due with
    | count =>
      unfold decode
      exact bind_eq_error_iff.mpr (Or.inl (takeLength_eq_error_iff.mpr ⟨short, rfl⟩))
    | nameLength fits more entries =>
      subst entries
      refine decode_of_takeEntry fits more ?_
      unfold takeEntry
      exact bind_eq_error_iff.mpr (Or.inl (takeLength_eq_error_iff.mpr ⟨short, rfl⟩))
    | name length fits =>
      cases length with
      | nameLength fitsCount more entries =>
        subst entries
        rw [List.append_assoc]
        refine decode_of_takeEntry fitsCount more (takeEntry_of_name fits ?_)
        exact take_eq_error_iff.mpr ⟨short, rfl⟩
    | setLength name =>
      cases name with
      | name length fits =>
        cases length with
        | nameLength fitsCount more entries =>
          subst entries
          rw [List.append_assoc, List.append_assoc]
          refine decode_of_takeEntry fitsCount more (takeEntry_of_setLength fits ?_)
          exact takeLength_eq_error_iff.mpr ⟨short, rfl⟩
    | set length fits =>
      cases length with
      | setLength name =>
        cases name with
        | name length fitsName =>
          cases length with
          | nameLength fitsCount more entries =>
            subst entries
            rw [List.append_assoc, List.append_assoc, List.append_assoc]
            refine decode_of_takeEntry fitsCount more (takeEntry_of_set fitsName fits ?_)
            exact take_eq_error_iff.mpr ⟨short, rfl⟩
  | invalidName due text =>
    cases due with
    | name length fits =>
      cases length with
      | nameLength fitsCount more entries =>
        subst entries
        rw [List.append_assoc]
        exact decode_of_takeEntry fitsCount more (takeEntry_of_invalidName fits text)

/-- **Reading fails exactly on faulty bytes**, and reports what is wrong with them. -/
theorem decode_eq_error_iff : decode b = .error e ↔ Faulty b e :=
  ⟨faulty_of_decode, decode_of_faulty⟩

/-- **What is reported is the first thing that is wrong.**  Reading reports just what is wrong with
the bytes behind a beginning in good order; with too few bytes for a count this is the count.  No
lists are read from faulty bytes, and from all others they are. -/
theorem first_fault_reported (b : Bytes) :
    (∀ e, decode b = .error e ↔ Faulty b e) ∧
    (b.length < Word.size → decode b = .error (.truncated .count Word.size b.length)) ∧
    ((∃ e, Faulty b e) ↔ ∀ lists, decode b ≠ .ok lists) := by
  refine ⟨fun e => decode_eq_error_iff, ?_, ?_, ?_⟩
  · intro short
    exact decode_of_faulty (.truncated .count short)
  · rintro ⟨e, hfaulty⟩ lists hlists
    rw [decode_of_faulty hfaulty] at hlists
    cases hlists
  · intro hnone
    cases h : decode b with
    | ok lists => exact absurd h (hnone lists)
    | error e => exact ⟨e, faulty_of_decode h⟩

/-- A length beyond all bytes, behind an entry in good order; a name that is not UTF-8, with nothing
behind it; and too few bytes for a count. -/
theorem first_fault_reported_huge :
    let huge := Word.encode 2 ++ (Word.encode 0 ++ (Word.encode 3 ++ ([1, 2, 3] ++
      (Word.encode (Word.bound - 1) ++ [0x61]))))
    let named := Word.encode 1 ++ (Word.encode 1 ++ [0xff])
    Faulty huge (.truncated (.name 1) (Word.bound - 1) 1) ∧ (∀ lists, decode huge ≠ .ok lists) ∧
      Faulty named (.invalidName 0) ∧ (∀ lists, decode named ≠ .ok lists) ∧
      decode [1, 2, 3] = .error (.truncated .count Word.size 3) := by
  intro huge named
  have hhuge : decode huge = .error (.truncated (.name 1) (Word.bound - 1) 1) := rfl
  let front := Word.encode 1 ++ ([] : List Entry).flatMap Entry.bytes
  have start : Due front (.nameLength 0) Word.size := .nameLength (by decide) (by decide) rfl
  have hfaulty : Faulty (front ++ Word.encode 1 ++ ([0xff] ++ [])) (.invalidName 0) :=
    .invalidName (start.name (by decide)) (by decide)
  have faultyNamed : Faulty named (.invalidName 0) := hfaulty
  obtain ⟨hugeFault, -, hugeNone⟩ := first_fault_reported huge
  obtain ⟨-, -, namedNone⟩ := first_fault_reported named
  have faultyHuge := (hugeFault _).mp hhuge
  refine ⟨faultyHuge, hugeNone.mp ⟨_, faultyHuge⟩, faultyNamed, namedNone.mp ⟨_, faultyNamed⟩, ?_⟩
  exact (first_fault_reported [1, 2, 3]).2.1 (by decide)

end Snapshot

end ProposerBook
