/-
Reading with a cursor, and how far it gets.

The reader of snapshots hands on what is left of the bytes.  Here it is written as a cursor, which
keeps all of them and moves an offset: what is left is a difference, the end of a part a sum, and
the part a range of the bytes.  Each of these can go wrong by itself.  An offset is a number below
`space`, a difference or a sum that is none stops the cursor with `overflow`, and a range that is
not within the bytes stops it with `outOfRange`.

`Follows` says that a cursor does what the reader does, so that it stops for no other reason than
the reader, and that it stays within the bytes.  It is shown for one part and kept by going on, so
it holds of a whole list.  For the lists of a snapshot the count says nothing about how many are
begun; what says it is that a list which has been read took sixteen bytes or more (`Spaced`).
-/
import ProposerBook.Proofs.Snapshot.Faults

namespace ProposerBook

namespace Snapshot

/-! ### The cursor -/

/-- A part that was asked for, and where the cursor stood before and after. -/
structure Read where
  field : Field
  length : Nat
  before : Nat
  after : Nat
  deriving DecidableEq, Repr

/-- All bytes, and how many of them have been read. -/
structure Cursor where
  bytes : Bytes
  offset : Nat := 0
  /-- What was asked for so far, the latest first. -/
  reads : List Read := []
  /-- Where lists were begun, the latest first. -/
  begun : List Nat := []
  deriving DecidableEq, Repr

/-- Why a cursor stops. -/
inductive Stop
  | fault (e : DecodeError)
  | overflow
  | outOfRange
  deriving DecidableEq, Repr

/-- What a cursor does; where it stops is told with the reason. -/
abbrev Walk := EStateM Stop Cursor

namespace Walk

def minus (n m : Nat) : Walk Nat := if m ≤ n then return n - m else throw .overflow

def plus (space n m : Nat) : Walk Nat := if n + m < space then return n + m else throw .overflow

def slice (start stop : Nat) : Walk Bytes := do
  let c ← get
  if start ≤ stop ∧ stop ≤ c.bytes.length then return (c.bytes.take stop).drop start
  else throw .outOfRange

def remaining : Walk Nat := do
  let c ← get
  minus c.bytes.length c.offset

/-- Takes the `n` bytes of a part; `n` may be no offset. -/
def advance (space : Nat) (f : Field) (n : Nat) : Walk Bytes := do
  let left ← remaining
  if n < space ∧ n ≤ left then
    let c ← get
    let stop ← plus space c.offset n
    let part ← slice c.offset stop
    set { c with offset := stop }
    return part
  else throw (.fault (.truncated f n left))

/-- Keeps a record of where the cursor was before and after. -/
def recorded {α : Type} (f : Field) (n : Nat) (w : Walk α) : Walk α := fun c =>
  let record (c' : Cursor) : Cursor :=
    { c' with reads := ⟨f, n, c.offset, c'.offset⟩ :: c'.reads }
  match w c with
  | .ok a c' => .ok a (record c')
  | .error e c' => .error e (record c')

def take (space : Nat) (f : Field) (n : Nat) : Walk Bytes := recorded f n (advance space f n)

def takeLength (space : Nat) (f : Field) : Walk Nat := do
  let w ← take space f Word.size
  return Word.decode w

def takeEntry (space i : Nat) : Walk (String × AddressSet) := do
  let nameLength ← takeLength space (.nameLength i)
  let name ← take space (.name i) nameLength
  match name.toString? with
  | none => throw (.fault (.invalidName i))
  | some name =>
    let setLength ← takeLength space (.setLength i)
    let set ← take space (.set i) setLength
    return (name, decodeSet set)

def beginEntry : Walk Unit := modify fun c => { c with begun := c.offset :: c.begun }

def takeEntries (space i : Nat) : Nat → Walk (List (String × AddressSet))
  | 0 => return []
  | n + 1 => do
    beginEntry
    let e ← takeEntry space i
    let es ← takeEntries space (i + 1) n
    return e :: es

def decode (space : Nat) : Walk NamedLists := do
  let count ← takeLength space .count
  let entries ← takeEntries space 0 count
  return Table.ofList entries

end Walk

/-! ### Within the bytes -/

variable {α β : Type} {space size i n o : Nat} {f : Field} {c c' c'' : Cursor}

/-- How a cursor gets to an offset among `size` bytes: each part is taken if there are as many
bytes left as it has, and otherwise the cursor stays where it is. -/
inductive Course (size : Nat) : List Read → Nat → Prop
  | start : Course size [] 0
  | taken {rs : List Read} {f : Field} {n o : Nat} (course : Course size rs o)
      (there : n ≤ size - o) : Course size (⟨f, n, o, o + n⟩ :: rs) (o + n)
  | refused {rs : List Read} {f : Field} {n o : Nat} (course : Course size rs o)
      (missing : size - o < n) : Course size (⟨f, n, o, o⟩ :: rs) o

theorem Course.le_size {rs : List Read} (course : Course size rs o) : o ≤ size := by
  induction course with
  | start => exact Nat.zero_le size
  | taken course there ih => omega
  | refused course missing ih => exact ih

/-- A read has its bytes, or it changes nothing. -/
structure Read.Bounded (size : Nat) (r : Read) : Prop where
  forward : r.before ≤ r.after
  within : r.after ≤ size
  taken : r.length ≤ size - r.before → r.after = r.before + r.length
  refused : size - r.before < r.length → r.after = r.before

theorem Course.bounded {rs : List Read} (course : Course size rs o) :
    ∀ r ∈ rs, r.Bounded size ∧ r.after ≤ o := by
  induction course with
  | start => nofun
  | @taken rs f n o course there ih =>
    have hle := course.le_size
    refine List.forall_mem_cons.mpr ⟨⟨⟨?_, ?_, fun _ => rfl, fun missing => ?_⟩, Nat.le_refl _⟩, ?_⟩
    · exact Nat.le_add_right o n
    · show o + n ≤ size
      omega
    · exact absurd there (Nat.not_le_of_lt missing)
    · intro r hr
      obtain ⟨hbounded, hafter⟩ := ih r hr
      exact ⟨hbounded, Nat.le_trans hafter (Nat.le_add_right o n)⟩
  | @refused rs f n o course missing ih =>
    refine List.forall_mem_cons.mpr
      ⟨⟨⟨Nat.le_refl o, course.le_size, fun there => ?_, fun _ => rfl⟩, Nat.le_refl o⟩, ih⟩
    exact absurd there (Nat.not_le_of_lt missing)

theorem Course.ascends {rs : List Read} (course : Course size rs o) :
    rs.Pairwise fun later earlier => earlier.after ≤ later.before := by
  induction course with
  | start => exact .nil
  | taken course there ih => exact .cons (fun r hr => (course.bounded r hr).2) ih
  | refused course missing ih => exact .cons (fun r hr => (course.bounded r hr).2) ih

namespace Cursor

def rest (c : Cursor) : Bytes := c.bytes.drop c.offset

/-- The cursor stands where its reads have brought it, and offsets reach as far as the bytes. -/
structure Sound (space : Nat) (c : Cursor) : Prop where
  course : Course c.bytes.length c.reads c.offset
  fits : c.bytes.length < space

/-- The cursor has moved on. -/
structure Onward (space : Nat) (c c' : Cursor) : Prop where
  bytes : c'.bytes = c.bytes
  offset : c.offset ≤ c'.offset
  sound : c'.Sound space

theorem Onward.trans (h : c.Onward space c') (h' : c'.Onward space c'') : c.Onward space c'' :=
  ⟨h'.bytes.trans h.bytes, Nat.le_trans h.offset h'.offset, h'.sound⟩

theorem length_rest (c : Cursor) : c.rest.length = c.bytes.length - c.offset := List.length_drop

end Cursor

namespace Walk

/-- How a cursor ends up where reading yields `x`. -/
def ended (x : Except DecodeError α) (c : Cursor) : EStateM.Result Stop Cursor α :=
  match x with
  | .ok a => .ok a c
  | .error e => .error (.fault e) c

/-- Within the bytes, taking a part does what it does to those that are left. -/
theorem advance_eq (sound : c.Sound space) : advance space f n c =
    if n ≤ c.rest.length then .ok (c.rest.take n) { c with offset := c.offset + n }
    else .error (.fault (.truncated f n c.rest.length)) c := by
  have hle := sound.course.le_size
  have hfits := sound.fits
  have hleft : remaining c = .ok c.rest.length c := by
    show minus c.bytes.length c.offset c = _
    rw [minus, if_pos hle, c.length_rest]
    rfl
  unfold advance
  simp only [bind, EStateM.bind, hleft]
  by_cases there : n ≤ c.rest.length
  · have hsum : c.offset + n ≤ c.bytes.length := by
      rw [c.length_rest] at there
      omega
    have hplus : plus space c.offset n c = .ok (c.offset + n) c := by
      rw [plus, if_pos (by omega)]
      rfl
    have hslice : slice c.offset (c.offset + n) c = .ok (c.rest.take n) c := by
      show (if c.offset ≤ c.offset + n ∧ c.offset + n ≤ c.bytes.length then _ else _ : Walk _) c = _
      rw [if_pos ⟨Nat.le_add_right _ _, hsum⟩, List.drop_take, Nat.add_sub_cancel_left]
      rfl
    rw [if_pos there, if_pos ⟨by omega, there⟩]
    show (plus space c.offset n >>= fun stop => _) c = _
    simp only [bind, EStateM.bind, hplus, hslice]
    rfl
  · rw [if_neg there, if_neg (fun h => there h.2)]
    rfl

/-- The cursor goes where `read` goes with the bytes that are left, and ends as it does. -/
def Follows (space : Nat) (w : Walk α) (read : Bytes → Except DecodeError (α × Bytes)) : Prop :=
  ∀ c : Cursor, c.Sound space → ∃ c', w c = ended ((read c.rest).map Prod.fst) c' ∧
    c.Onward space c' ∧ c'.begun = c.begun ∧ ∀ a rest, read c.rest = .ok (a, rest) → c'.rest = rest

theorem follows_pure (a : α) : Follows space (pure a) fun b => .ok (a, b) := by
  intro c sound
  refine ⟨c, rfl, ⟨rfl, Nat.le_refl _, sound⟩, rfl, ?_⟩
  intro a' rest h
  cases h
  rfl

theorem follows_fault (e : DecodeError) :
    Follows space (throw (.fault e) : Walk α) fun _ => .error e := by
  intro c sound
  refine ⟨c, rfl, ⟨rfl, Nat.le_refl _, sound⟩, rfl, ?_⟩
  intro a rest h
  cases h

theorem bind_of_ok {w : Walk α} {next : α → Walk β} {a : α} (h : w c = .ok a c') :
    (w >>= next) c = next a c' := by
  show EStateM.bind w next c = _
  rw [EStateM.bind, h]

theorem bind_of_error {w : Walk α} {next : α → Walk β} {e : Stop} (h : w c = .error e c') :
    (w >>= next) c = .error e c' := by
  show EStateM.bind w next c = _
  rw [EStateM.bind, h]

theorem Follows.bind {w : Walk α} {next : α → Walk β}
    {read : Bytes → Except DecodeError (α × Bytes)}
    {more : α × Bytes → Except DecodeError (β × Bytes)}
    (hw : Follows space w read) (hnext : ∀ a, Follows space (next a) fun b => more (a, b)) :
    Follows space (w >>= next) fun b => read b >>= more := by
  intro c sound
  obtain ⟨c', hc', onward, hbegun, hrest⟩ := hw c sound
  dsimp only
  cases hread : read c.rest with
  | error e =>
    rw [hread] at hc'
    refine ⟨c', bind_of_error hc', onward, hbegun, ?_⟩
    intro a rest h
    cases h
  | ok x =>
    obtain ⟨a, rest⟩ := x
    rw [hread] at hc'
    obtain ⟨c'', hc'', onward', hbegun', hrest'⟩ := hnext a c' onward.sound
    rw [hrest a rest hread] at hc'' hrest'
    exact ⟨c'', (bind_of_ok hc').trans hc'', onward.trans onward', hbegun'.trans hbegun, hrest'⟩

/-- A part is taken as the reader takes it, and the record stays true. -/
theorem follows_take : Follows space (take space f n) (Snapshot.take f n) := by
  intro c sound
  have hlength := c.length_rest
  have hadvance := advance_eq (f := f) (n := n) sound
  unfold Walk.take recorded Snapshot.take
  by_cases there : n ≤ c.rest.length
  · rw [if_pos there] at hadvance ⊢
    rw [hadvance]
    refine ⟨_, rfl, ⟨rfl, Nat.le_add_right _ _, ?_, sound.fits⟩, rfl, ?_⟩
    · exact sound.course.taken (hlength ▸ there)
    · intro a rest h
      cases h
      exact List.drop_drop.symm
  · rw [if_neg there] at hadvance ⊢
    rw [hadvance]
    refine ⟨_, rfl, ⟨rfl, Nat.le_refl _, ?_, sound.fits⟩, rfl, nofun⟩
    exact sound.course.refused (hlength ▸ Nat.lt_of_not_le there)

theorem follows_takeLength : Follows space (takeLength space f) (Snapshot.takeLength f) :=
  follows_take.bind fun w => follows_pure (Word.decode w)

theorem follows_takeEntry : Follows space (takeEntry space i) (Snapshot.takeEntry i) := by
  refine follows_takeLength.bind fun nameLength => follows_take.bind fun name => ?_
  dsimp only
  cases name.toString? with
  | none => exact follows_fault (.invalidName i)
  | some s =>
    refine follows_takeLength.bind fun setLength => follows_take.bind fun set => ?_
    exact follows_pure (s, decodeSet set)

end Walk

/-! ### How many lists are begun -/

/-- The list that a part belongs to. -/
def Field.entry? : Field → Option Nat
  | .count => none
  | .nameLength i | .name i | .setLength i | .set i => some i

/-- An entry that is read takes its two lengths at least. -/
theorem length_of_takeEntry {b rest : Bytes} {v : String × AddressSet}
    (h : takeEntry i b = .ok (v, rest)) : rest.length + 16 ≤ b.length := by
  obtain ⟨e, -, rfl⟩ := takeEntry_eq_ok_iff.mp h
  have hsize : Word.size = 8 := rfl
  simp only [Entry.bytes, List.length_append, Word.length_encode]
  omega

/-- What an entry lacks is a part of it. -/
theorem entry?_of_takeEntry {b : Bytes} {e : DecodeError} (h : takeEntry i b = .error e) :
    e.field.entry? = some i := by
  unfold takeEntry at h
  rcases bind_eq_error_iff.mp h with h | ⟨⟨nameLength, b₁⟩, -, h⟩
  · obtain ⟨-, rfl⟩ := takeLength_eq_error_iff.mp h
    rfl
  rcases bind_eq_error_iff.mp h with h | ⟨⟨name, b₂⟩, -, h⟩
  · obtain ⟨-, rfl⟩ := take_eq_error_iff.mp h
    rfl
  dsimp only at h
  cases hs : name.toString? with
  | none =>
    rw [hs] at h
    cases h
    rfl
  | some s =>
    rw [hs] at h
    rcases bind_eq_error_iff.mp h with h | ⟨⟨setLength, b₃⟩, -, h⟩
    · obtain ⟨-, rfl⟩ := takeLength_eq_error_iff.mp h
      rfl
    rcases bind_eq_error_iff.mp h with h | ⟨⟨set, b₄⟩, -, h⟩
    · obtain ⟨-, rfl⟩ := take_eq_error_iff.mp h
      rfl
    · cases h

/-- Lists were begun at these offsets, and each of them had sixteen bytes before the next one; the
next one may be begun at `o`. -/
inductive Spaced : List Nat → Nat → Prop
  | first {o : Nat} (behind : 8 ≤ o) : Spaced [] o
  | next {os : List Nat} {o o' : Nat} (spaced : Spaced os o) (behind : o + 16 ≤ o') :
    Spaced (o :: os) o'

theorem Spaced.le {os : List Nat} (spaced : Spaced os o) : 8 + 16 * os.length ≤ o := by
  induction spaced with
  | first behind => exact behind
  | next spaced behind ih =>
    rw [List.length_cons]
    omega

theorem Spaced.mem_le {os : List Nat} (spaced : Spaced os o) : ∀ p ∈ os, p + 16 ≤ o := by
  induction spaced with
  | first behind => nofun
  | next spaced behind ih =>
    refine List.forall_mem_cons.mpr ⟨behind, fun p hp => ?_⟩
    have hp := ih p hp
    omega

theorem Spaced.pairwise {os : List Nat} (spaced : Spaced os o) :
    os.Pairwise fun later earlier => earlier + 16 ≤ later := by
  induction spaced with
  | first behind => exact .nil
  | next spaced behind ih => exact .cons spaced.mem_le ih

/-- Which lists have been begun when reading is over: all `n`, or no list behind the one at
fault. -/
structure Begins (x : Except DecodeError α) (n : Nat) (c : Cursor) : Prop where
  whole : ∀ a, x = .ok a → c.begun.length = n ∧ Spaced c.begun c.offset
  last : ∀ e, x = .error e → ∃ os o, c.begun = o :: os ∧ Spaced os o ∧ o ≤ c.offset ∧
    e.field.entry? = some os.length

theorem Begins.of_ok {a : α} (h : c.begun.length = n ∧ Spaced c.begun c.offset) :
    Begins (.ok a) n c := by
  refine ⟨fun _ _ => h, ?_⟩
  intro e he
  cases he

theorem Begins.of_error {e : DecodeError} (h : ∃ os o, c.begun = o :: os ∧ Spaced os o ∧
    o ≤ c.offset ∧ e.field.entry? = some os.length) : Begins (.error e : Except _ α) n c := by
  refine ⟨?_, ?_⟩
  · intro a ha
    cases ha
  · intro e' he
    cases he
    exact h

section Begins

variable {x : Except DecodeError α} (begins : Begins x n c)

include begins

theorem Begins.pairwise : c.begun.Pairwise fun later earlier => earlier + 16 ≤ later := by
  cases x with
  | ok a => exact (begins.whole a rfl).2.pairwise
  | error e =>
    obtain ⟨os, o, hbegun, spaced, -, -⟩ := begins.last e rfl
    rw [hbegun]
    exact .cons spaced.mem_le spaced.pairwise

/-- As many lists fit, and one more that does not. -/
theorem Begins.length_le : 8 + 16 * c.begun.length ≤ c.offset + 16 := by
  cases x with
  | ok a =>
    have hle := (begins.whole a rfl).2.le
    omega
  | error e =>
    obtain ⟨os, o, hbegun, spaced, hoffset, -⟩ := begins.last e rfl
    have hle := spaced.le
    rw [hbegun, List.length_cons]
    omega

end Begins

/-- The cursor is as far on as there are fewer bytes left. -/
theorem Cursor.Onward.offset_le (onward : c.Onward space c') (within : c.offset ≤ c.bytes.length)
    (h : c'.rest.length + n ≤ c.rest.length) : c.offset + n ≤ c'.offset := by
  have hle := onward.sound.course.le_size
  rw [c.length_rest, c'.length_rest, onward.bytes] at h
  rw [onward.bytes] at hle
  omega

namespace Walk

/-- **The lists are read as the reader does**, and each that is begun lies behind one that has been
read; the induction is on how many are still to come. -/
theorem takeEntries_eq (n : Nat) {i : Nat} {c : Cursor} (sound : c.Sound space)
    (count : c.begun.length = i) (spaced : Spaced c.begun c.offset) :
    ∃ c', takeEntries space i n c = ended ((Snapshot.takeEntries i n c.rest).map Prod.fst) c' ∧
      c.Onward space c' ∧ Begins (Snapshot.takeEntries i n c.rest) (i + n) c' := by
  induction n generalizing i c with
  | zero =>
    exact ⟨c, rfl, ⟨rfl, Nat.le_refl _, sound⟩, .of_ok ⟨count, spaced⟩⟩
  | succ n ih =>
    unfold takeEntries Snapshot.takeEntries
    let c₁ : Cursor := { c with begun := c.offset :: c.begun }
    have hbegin : beginEntry c = .ok () c₁ := rfl
    obtain ⟨c₂, hentry, onward, hbegun, hrest⟩ :=
      follows_takeEntry (i := i) c₁ ⟨sound.course, sound.fits⟩
    have hc₁ : c₁.rest = c.rest := rfl
    rw [bind_of_ok hbegin]
    rw [hc₁] at hentry hrest
    cases hread : Snapshot.takeEntry i c.rest with
    | error e =>
      rw [hread] at hentry
      have hentry? : e.field.entry? = some c.begun.length := by
        rw [entry?_of_takeEntry hread, count]
      exact ⟨c₂, bind_of_error hentry, ⟨onward.bytes, onward.offset, onward.sound⟩,
        .of_error ⟨c.begun, c.offset, hbegun, spaced, onward.offset, hentry?⟩⟩
    | ok x =>
      obtain ⟨v, rest⟩ := x
      rw [hread] at hentry
      have hlong : c₂.rest.length + 16 ≤ c₁.rest.length := by
        rw [hrest v rest hread]
        exact length_of_takeEntry hread
      have hoffset := onward.offset_le sound.course.le_size hlong
      obtain ⟨c₃, hmore, onward', begins⟩ := ih (i := i + 1) onward.sound
        (by rw [hbegun]; exact congrArg Nat.succ count) (hbegun ▸ spaced.next hoffset)
      rw [hrest v rest hread] at hmore begins
      have hgone : c.Onward space c₃ :=
        ⟨onward'.bytes.trans onward.bytes, Nat.le_trans onward.offset onward'.offset, onward'.sound⟩
      rw [bind_of_ok hentry, ok_bind]
      dsimp only
      cases hreads : Snapshot.takeEntries (i + 1) n rest with
      | error e =>
        rw [hreads] at hmore begins
        exact ⟨c₃, bind_of_error hmore, hgone, .of_error (begins.last e rfl)⟩
      | ok x =>
        rw [hreads] at hmore begins
        refine ⟨c₃, bind_of_ok hmore, hgone, .of_ok ?_⟩
        rw [← Nat.add_assoc, Nat.add_right_comm]
        exact begins.whole x rfl

/-- A snapshot is read as the reader does, from a count that is not there or with all lists that
are announced. -/
theorem decode_eq (b : Bytes) (fits : b.length < space) :
    ∃ c, decode space { bytes := b } = ended (Snapshot.decode b) c ∧ c.bytes = b ∧ c.Sound space ∧
      (c.begun = [] ∧ (∃ e, Snapshot.decode b = .error e ∧ e.field = .count) ∨
        Begins (Snapshot.decode b) (Word.decode (b.take Word.size)) c) := by
  have start : Cursor.Sound space { bytes := b } := ⟨.start, fits⟩
  obtain ⟨c₁, hcount, onward, hbegun, hrest⟩ := follows_takeLength (f := .count) _ start
  have hb : Cursor.rest { bytes := b } = b := rfl
  rw [hb] at hcount hrest
  unfold decode Snapshot.decode
  cases hread : Snapshot.takeLength .count b with
  | error e =>
    rw [hread] at hcount
    obtain ⟨-, rfl⟩ := takeLength_eq_error_iff.mp hread
    exact ⟨c₁, bind_of_error hcount, onward.bytes, onward.sound, Or.inl ⟨hbegun, _, rfl, rfl⟩⟩
  | ok x =>
    obtain ⟨count, rest⟩ := x
    rw [hread] at hcount
    obtain ⟨hbound, hbytes⟩ := takeLength_eq_ok_iff.mp hread
    have htaken : Word.decode (b.take Word.size) = count := by
      rw [hbytes, List.take_left' (Word.length_encode count), Word.decode_encode hbound]
    have hlong : c₁.rest.length + 8 ≤ (Cursor.rest { bytes := b }).length := by
      rw [hrest count rest hread, hb, hbytes, List.length_append, Word.length_encode]
      exact Nat.le_of_eq (Nat.add_comm _ _)
    have hoffset := onward.offset_le (Nat.zero_le _) hlong
    obtain ⟨c₂, hmore, onward', begins⟩ := takeEntries_eq (i := 0) count onward.sound
      (congrArg List.length hbegun) (hbegun ▸ .first hoffset)
    rw [hrest count rest hread] at hmore begins
    have hbytes' := onward'.bytes.trans onward.bytes
    rw [bind_of_ok hcount, ok_bind, htaken]
    rw [Nat.zero_add] at begins
    dsimp only
    cases hreads : Snapshot.takeEntries 0 count rest with
    | error e =>
      rw [hreads] at hmore begins
      exact ⟨c₂, bind_of_error hmore, hbytes', onward'.sound,
        Or.inr (.of_error (begins.last e rfl))⟩
    | ok x =>
      rw [hreads] at hmore begins
      exact ⟨c₂, bind_of_ok hmore, hbytes', onward'.sound, Or.inr (.of_ok (begins.whole x rfl))⟩

end Walk

/-- **However many lists are announced, reading is bounded by the bytes.**  A cursor reads what the
reader does, so none of its numbers is too large or too small and none of its ranges is not there.
It never goes back nor beyond the bytes, and a part that is not there leaves it where it is.  It
begins lists sixteen bytes apart and so no more than fit, of which all are read or the last one is
reported. -/
theorem reading_bounded (b : Bytes) (fits : b.length < space) :
    (∃ c : Cursor, Walk.decode space { bytes := b } = Walk.ended (decode b) c ∧ c.bytes = b ∧
      Course b.length c.reads c.offset ∧ (∀ r ∈ c.reads, r.Bounded b.length) ∧
      c.reads.Pairwise (fun later earlier => earlier.after ≤ later.before) ∧
      c.begun.Pairwise (fun later earlier => earlier + 16 ≤ later) ∧
      (8 ≤ b.length → c.begun.length ≤ (b.length - 8) / 16 + 1) ∧
      (∀ lists, decode b = .ok lists → c.begun.length = Word.decode (b.take Word.size)) ∧
      ∀ e i, decode b = .error e → e.field.entry? = some i → c.begun.length = i + 1) ∧
    (∀ i p v rest, takeEntry i p = .ok (v, rest) → rest.length + 16 ≤ p.length) ∧
    (∀ lists, decode b = .ok lists → 8 + 16 * Word.decode (b.take Word.size) ≤ b.length) ∧
    ∀ e i, decode b = .error e → e.field.entry? = some i → 8 + 16 * i ≤ b.length := by
  obtain ⟨c, hc, rfl, sound, hbegins⟩ := Walk.decode_eq b fits
  have hoffset := sound.course.le_size
  have hbounded := fun r hr => (sound.course.bounded r hr).1
  rcases hbegins with ⟨hnone, e, herror, hfield⟩ | begins
  · -- without a count nothing is begun and no list is reported
    have hno : ∀ e' i, decode c.bytes = .error e' → e'.field.entry? ≠ some i := by
      intro e' i he'
      rw [herror] at he'
      cases he'
      rw [hfield]
      nofun
    have hnot : ∀ lists, decode c.bytes ≠ .ok lists := by
      intro lists h
      rw [herror] at h
      cases h
    refine ⟨⟨c, hc, rfl, sound.course, hbounded, sound.course.ascends, ?_, ?_, ?_, ?_⟩,
      fun i p v rest => length_of_takeEntry, fun lists h => absurd h (hnot lists),
      fun e' i h hi => absurd hi (hno e' i h)⟩
    · rw [hnone]
      exact .nil
    · intro _
      rw [hnone]
      exact Nat.zero_le _
    · exact fun lists h => absurd h (hnot lists)
    · exact fun e' i h hi => absurd hi (hno e' i h)
  · have hlength := begins.length_le
    have hlast : ∀ e i, decode c.bytes = .error e → e.field.entry? = some i →
        c.begun.length = i + 1 := by
      intro e i h hi
      obtain ⟨os, o, hbegun, -, -, hentry⟩ := begins.last e h
      rw [hbegun, List.length_cons, Option.some.inj (hentry.symm.trans hi)]
    refine ⟨⟨c, hc, rfl, sound.course, hbounded, sound.course.ascends, begins.pairwise, ?_, ?_,
      hlast⟩, fun i p v rest => length_of_takeEntry, fun lists h => ?_, fun e i h hi => ?_⟩
    · intro _
      omega
    · exact fun lists h => (begins.whole lists h).1
    · obtain ⟨hcount, spaced⟩ := begins.whole lists h
      have hle := spaced.le
      omega
    · have hi := hlast e i h hi
      omega

/-- More lists are announced than there are bytes anywhere; the second one has a name that is as
long, and three bytes are left. -/
theorem reading_bounded_huge :
    let b := Word.encode (Word.bound - 1) ++ (Word.encode 0 ++ (Word.encode 0 ++
      (Word.encode (Word.bound - 1) ++ [0x61, 0x62, 0x63])))
    b.length < Word.bound ∧ decode b = .error (.truncated (.name 1) (Word.bound - 1) 3) ∧
      ∃ c : Cursor, Walk.decode Word.bound { bytes := b } =
          .error (.fault (.truncated (.name 1) (Word.bound - 1) 3)) c ∧
        c.begun.length = 2 ∧ (b.length - 8) / 16 + 1 = 2 ∧ 8 + 16 * 1 ≤ b.length := by
  intro b
  have herror : decode b = .error (.truncated (.name 1) (Word.bound - 1) 3) := rfl
  have fits : b.length < Word.bound := by decide
  obtain ⟨⟨c, hc, -, -, -, -, -, -, -, hlast⟩, -, -, hwithin⟩ := reading_bounded b fits
  rw [herror] at hc
  exact ⟨fits, herror, c, hc, hlast _ 1 herror rfl, by decide, hwithin _ 1 herror rfl⟩

end Snapshot

end ProposerBook
