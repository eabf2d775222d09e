/-
What becomes of a reading when bytes are cut off or added.

A reading that succeeds needs the bytes of its layout and no others.  One that fails for want
of bytes goes on where it stopped when more arrive: with too few of them it stops at the same
part again, and otherwise it gets past this part, so that whatever is missing then comes later.
A name that is not UTF-8 stays what it is.

All of this is read off the two descriptions of what reading yields, the layouts for success and
the faulty bytes for failure.  The one thing to show about beginnings is that bytes have at most
one of them for each part (`Due.unique`), and that the beginning for a part contains those for
all parts before it (`Due.before`).
-/
import ProposerBook.Proofs.Snapshot.Faults
import ProposerBook.Proofs.Snapshot.RoundTrip

namespace ProposerBook

namespace Snapshot

/-! ### The order of the parts -/

/-- The place of a part in the order of reading. -/
def Field.place : Field → Nat
  | .count => 0
  | .nameLength i => 4 * i + 1
  | .name i => 4 * i + 2
  | .setLength i => 4 * i + 3
  | .set i => 4 * i + 4

theorem Field.eq_of_place {f g : Field} (h : f.place = g.place) : f = g := by
  cases f <;> cases g <;> simp only [Field.place] at h <;> simp <;> omega

variable {f g : Field} {i n m : Nat} {front earlier b p : Bytes}

/-- What stands before a part ends with the part before it. -/
theorem Due.previous (due : Due front f n) : f = .count ∨
    ∃ earlier part g, Due earlier g part.length ∧ front = earlier ++ part ∧
      f.place = g.place + 1 := by
  cases due with
  | count => exact Or.inl rfl
  | @nameLength n i es fits more entries =>
    refine Or.inr ?_
    rcases List.eq_nil_or_concat es with rfl | ⟨es', e, rfl⟩
    · subst entries
      refine ⟨[], Word.encode n, .count, ?_, by simp, rfl⟩
      rw [Word.length_encode]
      exact .count
    · have hlength : es'.length + 1 = i := by simpa using entries
      have start : Due _ (.nameLength es'.length) Word.size := .nameLength fits (by omega) rfl
      have dueSet := ((start.name e.name_fits).setLength).set e.set_fits
      refine ⟨_, e.set, _, dueSet, by simp [Entry.bytes], ?_⟩
      simp only [Field.place]
      omega
  | @name front i n length fits =>
    refine Or.inr ⟨front, Word.encode n, .nameLength i, ?_, rfl, rfl⟩
    rw [Word.length_encode]
    exact length
  | @setLength front i s name =>
    exact Or.inr ⟨front, Bytes.ofString s, .name i, name, rfl, rfl⟩
  | @set front i n length fits =>
    refine Or.inr ⟨front, Word.encode n, .setLength i, ?_, rfl, rfl⟩
    rw [Word.length_encode]
    exact length

/-- A beginning has all parts before the one that is due in it, each as long as announced. -/
theorem Due.before (due : Due front f n) (h : g.place < f.place) :
    ∃ earlier m, Due earlier g m ∧ earlier <+: front ∧ earlier.length + m ≤ front.length := by
  induction hk : f.place generalizing front f n with
  | zero => omega
  | succ k ih =>
    rcases due.previous with rfl | ⟨earlier, part, f', due', rfl, hplace⟩
    · cases hk
    · by_cases hg : g.place = f'.place
      · obtain rfl := Field.eq_of_place hg
        exact ⟨earlier, part.length, due', List.prefix_append _ _, by simp⟩
      · obtain ⟨first, m, dueFirst, hbegins, hle⟩ := ih due' (by omega) (by omega)
        refine ⟨first, m, dueFirst, hbegins.trans (List.prefix_append _ _), ?_⟩
        rw [List.length_append]
        omega

/-! ### Bytes are laid out in one way only -/

theorem encode_inj (hn : n < Word.bound) (hm : m < Word.bound)
    (h : Word.encode n = Word.encode m) : n = m := by
  rw [← Word.decode_encode hn, h, Word.decode_encode hm]

/-- As many entries leave the same bytes behind. -/
theorem rest_of_entries {es fs : List Entry} {r s : Bytes} (hlength : es.length = fs.length)
    (h : es.flatMap Entry.bytes ++ r = fs.flatMap Entry.bytes ++ s) : r = s := by
  have hes := takeEntries_bytes 0 es r
  rw [h, hlength, takeEntries_bytes 0 fs s] at hes
  exact (congrArg Prod.snd (Except.ok.inj hes)).symm

theorem rest_of_layout {es fs : List Entry} {r s : Bytes} (hes : es.length < Word.bound)
    (hfs : fs.length < Word.bound) (h : layout es r = layout fs s) : r = s := by
  obtain ⟨hcount, hrest⟩ := List.append_inj h (by simp)
  exact rest_of_entries (encode_inj hes hfs hcount) hrest

/-- Of two beginnings of equal length there is one. -/
theorem part_of_begins {x y : Bytes} (hx : front ++ x <+: b) (hy : front ++ y <+: b)
    (h : x.length = y.length) : x = y := by
  have hbegins := List.prefix_of_prefix_length_le hx hy (by simp [h])
  exact List.append_cancel_left (hbegins.eq_of_length (by simp [h]))

/-- **Bytes begin in one way only** up to a part, and announce one length for it. -/
theorem Due.unique (due : Due front f n) (due' : Due earlier f m) (h : front <+: b)
    (h' : earlier <+: b) : front = earlier ∧ n = m := by
  induction due generalizing earlier m with
  | count =>
    cases due'
    exact ⟨rfl, rfl⟩
  | @nameLength n i es fits more entries =>
    cases due' with
    | @nameLength m _ fs fits' more' entries' =>
      refine ⟨?_, rfl⟩
      obtain ⟨r, hr⟩ := h
      obtain ⟨s, hs⟩ := h'
      have hsame := hr.trans hs.symm
      rw [List.append_assoc, List.append_assoc] at hsame
      obtain ⟨-, hentries⟩ := List.append_inj hsame (by simp)
      rw [rest_of_entries (entries.trans entries'.symm) hentries] at hr
      exact List.append_cancel_right (hr.trans hs.symm)
  | @name front i n length fits ih =>
    cases due' with
    | @name front' _ m length' fits' =>
      obtain ⟨rfl, -⟩ := ih length' ((List.prefix_append _ _).trans h)
        ((List.prefix_append _ _).trans h')
      have hword := part_of_begins h h' (by simp)
      exact ⟨by rw [hword], encode_inj fits fits' hword⟩
  | @setLength front i s name ih =>
    cases due' with
    | @setLength front' _ s' name' =>
      obtain ⟨rfl, hlength⟩ := ih name' ((List.prefix_append _ _).trans h)
        ((List.prefix_append _ _).trans h')
      exact ⟨by rw [part_of_begins h h' hlength], rfl⟩
  | @set front i n length fits ih =>
    cases due' with
    | @set front' _ m length' fits' =>
      obtain ⟨rfl, -⟩ := ih length' ((List.prefix_append _ _).trans h)
        ((List.prefix_append _ _).trans h')
      have hword := part_of_begins h h' (by simp)
      exact ⟨by rw [hword], encode_inj fits fits' hword⟩

/-! ### More bytes -/

theorem decode_append_of_ok {lists : NamedLists} (h : decode b = .ok lists) (t : Bytes) :
    decode (b ++ t) = .ok lists := by
  obtain ⟨es, rest, hes, rfl, rfl⟩ := decode_eq_ok_iff.mp h
  have hmore : layout es rest ++ t = layout es (rest ++ t) := by simp [layout]
  rw [hmore, decode_layout hes]

theorem decode_append_of_invalidName (h : decode b = .error (.invalidName i)) (t : Bytes) :
    decode (b ++ t) = .error (.invalidName i) := by
  cases faulty_of_decode h with
  | @invalidName front name rest i due text =>
    rw [List.append_assoc, List.append_assoc]
    exact decode_of_faulty (.invalidName due text)

/-- Where all bytes of a part are there, nothing is missing up to it. -/
theorem place_lt_of_faulty {r : Nat} (due : Due front f n) (begins : front <+: b)
    (enough : front.length + n ≤ b.length) (h : Faulty b (.truncated g m r)) :
    f.place < g.place := by
  by_contra hplace
  have hdue : ∃ earlier k, Due earlier g k ∧ earlier <+: b ∧ earlier.length + k ≤ b.length := by
    by_cases hg : g.place = f.place
    · obtain rfl := Field.eq_of_place hg
      exact ⟨front, n, due, begins, enough⟩
    · obtain ⟨earlier, k, due', hbegins, hle⟩ := due.before (g := g) (by omega)
      exact ⟨earlier, k, due', hbegins.trans begins, by omega⟩
  obtain ⟨earlier, k, due', hbegins, hle⟩ := hdue
  cases h with
  | @truncated front' rest _ _ due'' short =>
    obtain ⟨rfl, rfl⟩ := due'.unique due'' hbegins (List.prefix_append _ _)
    rw [List.length_append] at hle
    omega

/-- What is missing is asked for again, or else it has come. -/
theorem decode_append_of_truncated (h : decode b = .error (.truncated f n m)) (t : Bytes) :
    m < n ∧ (t.length < n - m → decode (b ++ t) = .error (.truncated f n (m + t.length))) ∧
      (n - m ≤ t.length → ∀ g k r, decode (b ++ t) = .error (.truncated g k r) →
        f.place < g.place) := by
  cases faulty_of_decode h with
  | @truncated front rest _ _ due short =>
    refine ⟨short, ?_, ?_⟩
    · intro few
      rw [List.append_assoc, ← List.length_append]
      refine decode_of_faulty (.truncated due ?_)
      rw [List.length_append]
      omega
    · intro enough g k r hagain
      rw [List.append_assoc] at hagain
      refine place_lt_of_faulty due (List.prefix_append _ _) ?_ (faulty_of_decode hagain)
      simp only [List.length_append]
      omega

/-! ### Fewer bytes -/

/-- Of bytes that are laid out, the layout is needed and what follows it is not. -/
theorem decode_prefix_of_layout {es : List Entry} {rest : Bytes} (hes : es.length < Word.bound)
    (h : p <+: layout es rest) :
    (p.length < (layout es []).length → ∃ f n m, decode p = .error (.truncated f n m)) ∧
      ((layout es []).length ≤ p.length →
        decode p = .ok (Table.ofList (es.map Entry.value))) := by
  have hlayout : ∀ r, layout es r = layout es [] ++ r := fun r => by simp [layout]
  refine ⟨?_, ?_⟩
  · intro short
    obtain ⟨t, ht⟩ := h
    have hwhole : decode (p ++ t) = .ok (Table.ofList (es.map Entry.value)) := by
      rw [ht, decode_layout hes]
    cases hp : decode p with
    | ok lists =>
      -- Had the prefix a layout of its own, this would be a layout of the whole, and longer.
      obtain ⟨fs, r, hfs, rfl, -⟩ := decode_eq_ok_iff.mp hp
      have hsame : layout fs (r ++ t) = layout es rest := by
        rw [← ht]
        simp [layout]
      have hlength := congrArg List.length hsame
      rw [hlayout rest, ← rest_of_layout hfs hes hsame] at hlength
      have hr : layout fs (r ++ t) = layout fs r ++ t := by simp [layout]
      rw [hr] at hlength
      simp only [List.length_append] at hlength
      omega
    | error e =>
      cases e with
      | truncated f n m => exact ⟨f, n, m, rfl⟩
      | invalidName i =>
        rw [decode_append_of_invalidName hp t] at hwhole
        cases hwhole
  · intro long
    have hneeded : layout es [] <+: p := by
      refine List.prefix_of_prefix_length_le ?_ h long
      rw [hlayout rest]
      exact List.prefix_append _ _
    obtain ⟨r, rfl⟩ := hneeded
    rw [← hlayout r, decode_layout hes]

/-- What is written is a layout with nothing behind it. -/
theorem exists_layout {lists : NamedLists} {es : List (String × List Address)}
    (fits : Fits lists) (h : Arranges lists es) :
    ∃ fs : List Entry, fs.length < Word.bound ∧ encodeInOrder es = layout fs [] := by
  obtain ⟨fs, hlength, hbytes, -⟩ := exists_entries (entryFits_of_arranges fits h)
  obtain ⟨order, hperm, hall⟩ := h
  refine ⟨fs, ?_, ?_⟩
  · rw [hlength, hall.length_eq, hperm.length_eq]
    exact fits.count
  · rw [encodeInOrder, layout, hlength, hbytes, List.append_nil]

/-- **Cutting off and adding bytes.**  Lists that are read are read from every prefix that is not
too short, and from all that is longer; a prefix that is too short is truncated.  A name that is
not UTF-8 stays the fault.  Bytes that are missing are asked for until they have come, and then
only later parts can be missing. -/
theorem decode_cut_or_extended (b t : Bytes) :
    (∀ lists, decode b = .ok lists → decode (b ++ t) = .ok lists ∧
      ∃ c, c ≤ b.length ∧ ∀ p, p <+: b →
        (p.length < c → ∃ f n m, decode p = .error (.truncated f n m)) ∧
        (c ≤ p.length → decode p = .ok lists)) ∧
    (∀ i, decode b = .error (.invalidName i) → decode (b ++ t) = .error (.invalidName i)) ∧
    (∀ f n m, decode b = .error (.truncated f n m) → m < n ∧
      (t.length < n - m → decode (b ++ t) = .error (.truncated f n (m + t.length))) ∧
      (n - m ≤ t.length → ∀ g k r, decode (b ++ t) = .error (.truncated g k r) →
        f.place < g.place)) ∧
    (∀ lists es, Fits lists → Arranges lists es → ∀ p, p <+: encodeInOrder es →
      p ≠ encodeInOrder es → ∃ f n m, decode p = .error (.truncated f n m)) := by
  refine ⟨?_, ?_, ?_, ?_⟩
  · intro lists h
    refine ⟨decode_append_of_ok h t, ?_⟩
    obtain ⟨es, rest, hes, rfl, rfl⟩ := decode_eq_ok_iff.mp h
    exact ⟨(layout es []).length, by simp [layout], fun p hp => decode_prefix_of_layout hes hp⟩
  · exact fun i h => decode_append_of_invalidName h t
  · exact fun f n m h => decode_append_of_truncated h t
  · intro lists es fits arranged p hp hstrict
    obtain ⟨fs, hfs, hwritten⟩ := exists_layout fits arranged
    rw [hwritten] at hp hstrict
    refine (decode_prefix_of_layout hfs hp).1 (Nat.lt_of_le_of_ne hp.length_le ?_)
    exact fun hlength => hstrict (hp.eq_of_length hlength)

/-- Half of a name is there, and then the name and a part of what comes after it, and in the end
all of it and a byte more; what is written of the list begins with the half. -/
theorem decode_cut_or_extended_midway :
    let b := Word.encode 1 ++ (Word.encode 2 ++ [0x61])
    let t : Bytes := [0x62, 0, 0]
    let whole := b ++ (0x62 :: Word.encode 0)
    let lists : NamedLists := Table.ofList [("ab", {})]
    decode b = .error (.truncated (.name 0) 2 1) ∧
      decode (b ++ []) = .error (.truncated (.name 0) 2 1) ∧
      (∀ g k r, decode (b ++ t) = .error (.truncated g k r) → (Field.name 0).place < g.place) ∧
      decode whole = .ok lists ∧ decode (whole ++ [7]) = .ok lists ∧
      Fits lists ∧ Arranges lists [("ab", [])] ∧ encodeInOrder [("ab", [])] = whole ∧
      ∃ f n m, decode b = .error (.truncated f n m) := by
  intro b t whole lists
  have hb : decode b = .error (.truncated (.name 0) 2 1) := rfl
  have hwhole : decode whole = .ok lists := by
    let e : Entry := ⟨"ab", [], by decide, by decide⟩
    have hlayout : whole = layout [e] [] := rfl
    have hlists : Table.ofList ([e].map Entry.value) = lists := by decide
    rw [hlayout, ← hlists]
    exact decode_layout (by decide) []
  have fits : Fits lists := by
    refine ⟨by decide, ?_, ?_⟩ <;> decide
  have arranged : Arranges lists [("ab", [])] :=
    ⟨[("ab", {})], by decide, .cons ⟨rfl, .refl _⟩ .nil⟩
  have hwritten : encodeInOrder [("ab", [])] = whole := rfl
  obtain ⟨-, -, hnone, hstrict⟩ := decode_cut_or_extended b []
  obtain ⟨-, -, hmore, -⟩ := decode_cut_or_extended b t
  obtain ⟨hread, -, -, -⟩ := decode_cut_or_extended whole [7]
  refine ⟨hb, ?_, ?_, hwhole, ?_, fits, arranged, hwritten, ?_⟩
  · exact (hnone _ _ _ hb).2.1 (by decide)
  · exact (hmore _ _ _ hb).2.2 (by decide)
  · exact (hread lists hwhole).1
  · exact hstrict lists _ fits arranged b (List.prefix_append _ _) (by decide)

end Snapshot

end ProposerBook
