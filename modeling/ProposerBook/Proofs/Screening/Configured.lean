/-
What comes of the configured files.

The blacklist and the snapshot are asked for one after the other, and neither has a bearing on what
is read from the other.  So setting up a registry is reading a blacklist, reading lists, and putting
both into a new registry, where a file that is not configured stands for nothing: no blacklist and
no lists.  A snapshot that is not there stands for nothing as well, while a blacklist has to be
there.

It follows which fault is reported.  It is one of the blacklist, if it has any, and else one of the
snapshot.  And since the blacklist goes into one part of a registry and the lists into another,
putting in the one before the other or after it comes to the same.
-/
import ProposerBook.Proofs.Screening.Blacklist
import ProposerBook.Proofs.Screening.History
import ProposerBook.Proofs.Screening.Records
import ProposerBook.Proofs.Snapshot.Faults
import ProposerBook.Proofs.Snapshot.RoundTrip
import ProposerBook.Screening.Settings

namespace ProposerBook

/-! ### The blacklist -/

theorem FileContent.text_of_text (s : String) : text (.ok (Bytes.ofString s)) = .ok s := by
  unfold text
  simp [bind, Except.bind]

theorem FileContent.text_of_no_text {b : Bytes} (h : ∀ s, Bytes.ofString s ≠ b) :
    text (.ok b) = .error .notText := by
  have hnone : b.toString? = none := by
    rw [Option.eq_none_iff_forall_ne_some]
    intro s hs
    exact h s (Bytes.eq_ofString_of_toString? hs).symm
  unfold text
  simp [bind, Except.bind, hnone]

namespace Blacklist

/-- The file is a blacklist: its text writes the entries. -/
inductive StoredAt : FileContent → Blacklist → Prop
  | text {s : String} {es : List Entry} (written : Written es (Bytes.ofString s)) :
    StoredAt (.ok (Bytes.ofString s)) (ofEntries es)

/-- The file is no blacklist, and what is wrong with it. -/
inductive FaultyAt : FileContent → ScreeningError → Prop
  /-- It is missing, or cannot be read. -/
  | unreadable (f : FileFault) : FaultyAt (.error f) (.blacklistUnreadable f)
  | noText {b : Bytes} (unspelled : ∀ s, Bytes.ofString s ≠ b) :
    FaultyAt (.ok b) (.blacklistUnreadable .notText)
  /-- Its text writes no entries. -/
  | refused {s : String} {r : Json.Refusal Empty}
      (unwritten : ∀ es, ¬Written es (Bytes.ofString s)) (told : parse s = .error r) :
    FaultyAt (.ok (Bytes.ofString s)) (.blacklistRefused r)

theorem storedAt_or_faultyAt (c : FileContent) : (∃ b, StoredAt c b) ∨ ∃ e, FaultyAt c e := by
  cases c with
  | error f => exact Or.inr ⟨_, .unreadable f⟩
  | ok b =>
    by_cases htext : ∀ s, Bytes.ofString s ≠ b
    · exact Or.inr ⟨_, .noText htext⟩
    · obtain ⟨s, hs⟩ := Classical.not_forall.mp htext
      rw [← Classical.not_not.mp hs]
      cases hparse : parse s with
      | ok l =>
        obtain ⟨es, written, -⟩ := parse_eq_ok_iff.mp hparse
        exact Or.inl ⟨_, .text written⟩
      | error r =>
        refine Or.inr ⟨_, .refused ?_ hparse⟩
        intro es written
        cases hparse.symm.trans (parse_eq_ok_iff.mpr ⟨es, written, rfl⟩)

theorem ofFile_of_storedAt {c : FileContent} {b : Blacklist} (h : StoredAt c b) :
    ofFile c = .ok b := by
  cases h with
  | text written =>
    unfold ofFile
    rw [FileContent.text_of_text]
    exact mapError_eq_ok_iff.mpr (parse_eq_ok_iff.mpr ⟨_, written, rfl⟩)

theorem ofFile_of_faultyAt {c : FileContent} {e : ScreeningError} (h : FaultyAt c e) :
    ofFile c = .error e := by
  cases h with
  | unreadable f => rfl
  | noText unspelled =>
    unfold ofFile
    rw [FileContent.text_of_no_text unspelled]
    rfl
  | refused unwritten told =>
    unfold ofFile
    rw [FileContent.text_of_text]
    exact mapError_eq_error_iff.mpr ⟨_, told, rfl⟩

/-- A file is one blacklist at most. -/
theorem StoredAt.unique {c : FileContent} {b b' : Blacklist} (h : StoredAt c b)
    (h' : StoredAt c b') : b = b' := by
  have hsame := (ofFile_of_storedAt h).symm.trans (ofFile_of_storedAt h')
  simpa using hsame

/-- **A file is read as the blacklist that it is.** -/
theorem ofFile_eq_ok_iff {c : FileContent} {b : Blacklist} : ofFile c = .ok b ↔ StoredAt c b := by
  refine ⟨?_, ofFile_of_storedAt⟩
  intro h
  rcases storedAt_or_faultyAt c with ⟨b', hb'⟩ | ⟨e, he⟩
  · cases h.symm.trans (ofFile_of_storedAt hb')
    exact hb'
  · cases h.symm.trans (ofFile_of_faultyAt he)

theorem ofFile_eq_error_iff {c : FileContent} {e : ScreeningError} :
    ofFile c = .error e ↔ FaultyAt c e := by
  refine ⟨?_, ofFile_of_faultyAt⟩
  intro h
  rcases storedAt_or_faultyAt c with ⟨b, hb⟩ | ⟨e', he'⟩
  · cases h.symm.trans (ofFile_of_storedAt hb)
  · cases h.symm.trans (ofFile_of_faultyAt he')
    exact he'

end Blacklist

/-! ### The snapshot -/

namespace Snapshot

/-- The file stores the lists; if it is not there, it stores none. -/
inductive StoredAt : FileContent → NamedLists → Prop
  | absent {f : FileFault} (missing : f.isThere = false) : StoredAt (.error f) {}
  | decoded {b : Bytes} {lists : NamedLists} (h : decode b = .ok lists) : StoredAt (.ok b) lists

/-- The file is there and stores no lists, and what is wrong with it. -/
inductive FaultyAt : FileContent → ScreeningError → Prop
  | unreadable {f : FileFault} (there : f.isThere = true) : FaultyAt (.error f) (.file f)
  | undecodable {b : Bytes} {e : DecodeError} (faulty : Faulty b e) : FaultyAt (.ok b) (.snapshot e)

/-- A file stores one collection of lists at most. -/
theorem StoredAt.unique {c : FileContent} {l m : NamedLists} (hl : StoredAt c l)
    (hm : StoredAt c m) : l = m := by
  cases hl with
  | absent =>
    cases hm
    rfl
  | decoded hdecode =>
    cases hm with
    | decoded hdecode' => simpa using hdecode.symm.trans hdecode'

end Snapshot

namespace Registry

/-- The blacklist of a file that may be configured. -/
def blacklistIn : Option FileContent → Except ScreeningError Blacklist
  | none => .ok .empty
  | some c => Blacklist.ofFile c

/-- The lists of a file that may be configured and may be there. -/
def listsIn : Option FileContent → Except ScreeningError NamedLists
  | some (.ok b) => (Snapshot.decode b).mapError .snapshot
  | some (.error f) => if f.isThere then .error (.file f) else .ok {}
  | none => .ok {}

theorem blacklistIn_map_eq_error_iff {path : Option String} {look : String → FileContent}
    {e : ScreeningError} : blacklistIn (path.map look) = .error e ↔
      ∃ p, path = some p ∧ Blacklist.FaultyAt (look p) e := by
  cases path with
  | none => simp [blacklistIn]
  | some p =>
    show Blacklist.ofFile (look p) = .error e ↔ _
    simp [Blacklist.ofFile_eq_error_iff]

theorem exists_blacklistIn_map_iff {path : Option String} {look : String → FileContent} :
    (∃ b, blacklistIn (path.map look) = .ok b) ↔
      ∀ p, path = some p → ∃ b, Blacklist.StoredAt (look p) b := by
  cases path with
  | none => simp [blacklistIn]
  | some p =>
    show (∃ b, Blacklist.ofFile (look p) = .ok b) ↔ _
    simp [Blacklist.ofFile_eq_ok_iff]

theorem listsIn_eq_ok_iff {c : FileContent} {lists : NamedLists} :
    listsIn (some c) = .ok lists ↔ Snapshot.StoredAt c lists := by
  cases c with
  | ok b =>
    show (Snapshot.decode b).mapError ScreeningError.snapshot = .ok lists ↔ _
    rw [mapError_eq_ok_iff]
    constructor
    · exact .decoded
    · intro h
      cases h with
      | decoded hdecode => exact hdecode
  | error f =>
    show (if f.isThere then Except.error (ScreeningError.file f) else .ok {}) = .ok lists ↔ _
    by_cases hthere : f.isThere = true
    · rw [if_pos hthere]
      refine iff_of_false nofun ?_
      rintro ⟨hmissing⟩
      cases hthere.symm.trans hmissing
    · rw [if_neg hthere]
      constructor
      · intro h
        cases h
        exact .absent (Bool.eq_false_iff.mpr hthere)
      · rintro ⟨-⟩
        rfl

theorem listsIn_eq_error_iff {c : FileContent} {e : ScreeningError} :
    listsIn (some c) = .error e ↔ Snapshot.FaultyAt c e := by
  cases c with
  | ok b =>
    show (Snapshot.decode b).mapError ScreeningError.snapshot = .error e ↔ _
    rw [mapError_eq_error_iff]
    constructor
    · rintro ⟨fault, hdecode, rfl⟩
      exact .undecodable (Snapshot.decode_eq_error_iff.mp hdecode)
    · intro h
      cases h with
      | undecodable faulty => exact ⟨_, Snapshot.decode_eq_error_iff.mpr faulty, rfl⟩
  | error f =>
    show (if f.isThere then Except.error (ScreeningError.file f) else .ok {}) = .error e ↔ _
    by_cases hthere : f.isThere = true
    · rw [if_pos hthere]
      constructor
      · intro h
        cases h
        exact .unreadable hthere
      · rintro ⟨-⟩
        rfl
    · rw [if_neg hthere]
      refine iff_of_false nofun ?_
      rintro ⟨h⟩
      exact hthere h

theorem listsIn_map_eq_error_iff {path : Option String} {look : String → FileContent}
    {e : ScreeningError} : listsIn (path.map look) = .error e ↔
      ∃ p, path = some p ∧ Snapshot.FaultyAt (look p) e := by
  cases path with
  | none => simp [listsIn]
  | some p =>
    show listsIn (some (look p)) = .error e ↔ _
    simp [listsIn_eq_error_iff]

/-! ### Both -/

/-- What set-up does with a snapshot is merging its lists in. -/
theorem ofFiles_snapshot (r : Registry) (times : Arrivals) (snapshot : Option FileContent) :
    (match snapshot with
      | none => Except.ok r
      | some c =>
        if c.isThere then do
          let (_, t) ← r.loadFile times c
          return t
        else .ok r) = (do
      let lists ← listsIn snapshot
      return r.update times lists) := by
  rcases snapshot with _ | (f | b)
  · rfl
  · show (if f.isThere then _ else _) = _
    unfold listsIn
    dsimp only
    split
    · rfl
    · rfl
  · show (do
      let (_, t) ← r.loadFile times (.ok b)
      return t) = (do
      let lists ← (Snapshot.decode b).mapError ScreeningError.snapshot
      return r.update times lists)
    rw [loadFile_ok]
    cases Snapshot.decode b with
    | ok lists => rfl
    | error e => rfl

/-- **Set-up reads the blacklist, then the lists, and puts both into a new registry.** -/
theorem ofFiles_eq (made : Timestamp) (times : Arrivals) (blacklist snapshot : Option FileContent) :
    ofFiles made times blacklist snapshot = do
    let b ← blacklistIn blacklist
    let lists ← listsIn snapshot
    return ((fresh made).withBlacklist b).update times lists := by
  cases blacklist with
  | none => exact ofFiles_snapshot (fresh made) times snapshot
  | some c =>
    unfold ofFiles blacklistIn
    dsimp only
    cases Blacklist.ofFile c with
    | error e => rfl
    | ok b => exact ofFiles_snapshot ((fresh made).withBlacklist b) times snapshot

theorem ofFiles_eq_ok_iff {made : Timestamp} {times : Arrivals}
    {blacklist snapshot : Option FileContent} {r : Registry} :
    ofFiles made times blacklist snapshot = .ok r ↔ ∃ b lists, blacklistIn blacklist = .ok b ∧
      listsIn snapshot = .ok lists ∧ ((fresh made).withBlacklist b).update times lists = r := by
  rw [ofFiles_eq, bind_eq_ok_iff]
  simp only [bind_eq_ok_iff, pure, Except.pure, Except.ok.injEq]
  constructor
  · rintro ⟨b, hb, lists, hlists, hr⟩
    exact ⟨b, lists, hb, hlists, hr⟩
  · rintro ⟨b, lists, hb, hlists, hr⟩
    exact ⟨b, hb, lists, hlists, hr⟩

theorem ofFiles_eq_error_iff {made : Timestamp} {times : Arrivals}
    {blacklist snapshot : Option FileContent} {e : ScreeningError} :
    ofFiles made times blacklist snapshot = .error e ↔ blacklistIn blacklist = .error e ∨
      (∃ b, blacklistIn blacklist = .ok b) ∧ listsIn snapshot = .error e := by
  rw [ofFiles_eq, bind_eq_error_iff]
  refine or_congr_right ?_
  constructor
  · rintro ⟨b, hb, hrest⟩
    rcases bind_eq_error_iff.mp hrest with hlists | ⟨lists, -, hend⟩
    · exact ⟨⟨b, hb⟩, hlists⟩
    · cases hend
  · rintro ⟨⟨b, hb⟩, hlists⟩
    exact ⟨b, hb, bind_eq_error_iff.mpr (Or.inl hlists)⟩

/-! ### One file after the other -/

/-- The blacklist and the lists go into different parts. -/
theorem update_withBlacklist (r : Registry) (b : Blacklist) (times : Arrivals)
    (lists : NamedLists) :
    (r.withBlacklist b).update times lists = (r.update times lists).withBlacklist b := by
  refine ext_held (fun n => ?_) (blacklist_update _ _ _)
  have hheld : ∀ s : Registry, (s.withBlacklist b).held n = s.held n := fun s => rfl
  rw [hheld, held_update, held_update, hheld]

/-- Reading the configured blacklist into a registry that has none. -/
theorem after_readBlacklist {blacklist : Option FileContent} {b : Blacklist}
    (h : blacklistIn blacklist = .ok b) {r : Registry} (new : r.blacklist = .empty) :
    r.after (blacklist.map Operation.readBlacklist).toList = r.withBlacklist b := by
  cases blacklist with
  | none =>
    cases h
    show r = { r with blacklist := .empty }
    rw [← new]
  | some c =>
    show r.perform (.readBlacklist c) = _
    have hread : Blacklist.ofFile c = .ok b := h
    rw [perform_readBlacklist, hread]

/-- Loading the configured snapshot; if it is not there, loading fails and changes nothing. -/
theorem after_load {snapshot : Option FileContent} {lists : NamedLists}
    (h : listsIn snapshot = .ok lists) (r : Registry) (times : Arrivals) :
    r.after (snapshot.map (Operation.load times)).toList = r.update times lists := by
  cases snapshot with
  | none =>
    cases h
    rfl
  | some c =>
    show r.perform (.load times c) = _
    rw [perform_load]
    cases listsIn_eq_ok_iff.mp h with
    | absent => rfl
    | decoded hdecode => rw [loadFile_ok, hdecode]

/-- **What the configured files make of a registry.**  Set-up fails just if a blacklist is
configured and is none, or if it is in order and a snapshot is configured that is there and stores
no lists, and in this order the fault is told.  Otherwise the blacklist is the one that is
configured, with its entries, and the lists are those of the snapshot and the baseline, which gives
way to a list of the snapshot with its name.  Reading the two files one after the other, in either
order, makes the same of a new registry. -/
theorem ofSettings_decides (made : Timestamp) (times : Arrivals) (s : ScreeningSettings)
    (look : String → FileContent) :
    (∀ e, ofSettings made times s look = .error e ↔
      (∃ p, s.blacklist? = some p ∧ Blacklist.FaultyAt (look p) e) ∨
      (∀ p, s.blacklist? = some p → ∃ b, Blacklist.StoredAt (look p) b) ∧
        ∃ p, s.snapshot? = some p ∧ Snapshot.FaultyAt (look p) e) ∧
    ∀ r, ofSettings made times s look = .ok r →
      (s.blacklist? = none → r.blacklist = .empty) ∧
      (∀ p, s.blacklist? = some p → Blacklist.StoredAt (look p) r.blacklist) ∧
      (∃ stored : NamedLists, (s.snapshot? = none → stored = {}) ∧
        (∀ p, s.snapshot? = some p → Snapshot.StoredAt (look p) stored) ∧
        ∀ n, r.lists.get? n = (stored.get? n).or
          (if n = Baseline.name then some Baseline.addresses else none)) ∧
      let reads := ((s.blacklist?.map look).map Operation.readBlacklist).toList
      let loads := ((s.snapshot?.map look).map (Operation.load times)).toList
      (fresh made).after (reads ++ loads) = r ∧ (fresh made).after (loads ++ reads) = r := by
  obtain ⟨blacklist?, snapshot?⟩ := s
  unfold ofSettings
  dsimp only
  refine ⟨?_, ?_⟩
  · intro e
    rw [ofFiles_eq_error_iff, blacklistIn_map_eq_error_iff, exists_blacklistIn_map_iff,
      listsIn_map_eq_error_iff]
  · intro r h
    obtain ⟨b, lists, hb, hlists, rfl⟩ := ofFiles_eq_ok_iff.mp h
    refine ⟨?_, ?_, ⟨lists, ?_, ?_, ?_⟩, ?_, ?_⟩
    · rintro rfl
      cases hb
      exact blacklist_update _ _ _
    · rintro p rfl
      rw [blacklist_update]
      exact Blacklist.ofFile_eq_ok_iff.mp hb
    · rintro rfl
      cases hlists
      rfl
    · rintro p rfl
      exact listsIn_eq_ok_iff.mp hlists
    · intro n
      rw [lists_update, ← lists_fresh made]
      rfl
    · rw [after_append, after_readBlacklist hb rfl, after_load hlists]
    · rw [after_append, after_load hlists, after_readBlacklist hb (blacklist_update _ _ _),
        update_withBlacklist]

/-- Both files in order; both at fault; a snapshot that breaks off; and one in a place that is no
directory, so that it is not there. -/
theorem ofSettings_decides_configured :
    let a : Address := .repeated 0x22
    let ours : Blacklist.Entry := ⟨"evm", Blacklist.plainWallet, "ours"⟩
    let settings : ScreeningSettings := ⟨some "blacklist.json", some "lists.bin"⟩
    let text : FileContent := .ok (Bytes.ofString (Blacklist.textOf [ours]))
    let stored : FileContent := .ok (Snapshot.encodeInOrder [("strict", [a])])
    let looks := fun (b s : FileContent) (p : String) => if p = "blacklist.json" then b else s
    (∃ r, ofSettings default unhurried settings (looks text stored) = .ok r ∧
      r.blacklist.entries = [ours] ∧ r.blacklist.contains a = true ∧
      r.lists.get? "strict" = some (.ofList [a]) ∧
      r.lists.get? Baseline.name = some Baseline.addresses ∧
      (fresh default).after [.load unhurried stored, .readBlacklist text] = r) ∧
    ofSettings default unhurried settings (looks (.error .notFound) (.error .isDirectory)) =
      .error (.blacklistUnreadable .notFound) ∧
    ofSettings default unhurried settings (looks text (.ok [1, 2, 3])) =
      .error (.snapshot (.truncated .count 8 3)) ∧
    ∃ r, ofSettings default unhurried settings (looks text (.error .notDirectory)) = .ok r ∧
      r.lists.get? Baseline.name = some Baseline.addresses := by
  intro a ours settings text stored looks
  have htext : Blacklist.StoredAt text (.ofEntries [ours]) :=
    .text (Blacklist.written_textOf (by decide +kernel))
  have hdecode : Snapshot.decode (Snapshot.encodeInOrder [("strict", [a])]) =
      .ok (Table.ofList [("strict", .ofList [a])]) := by
    have fits : ∀ e ∈ [("strict", [a])], Snapshot.EntryFits e := by
      unfold Snapshot.EntryFits
      decide
    have hall := Snapshot.decode_encodeInOrder_append (by decide) fits []
    rwa [List.append_nil] at hall
  -- With the blacklist in order, only the snapshot can be at fault.
  have hsucceeds : ∀ c lists, Snapshot.StoredAt c lists →
      ∃ r, ofSettings default unhurried settings (looks text c) = .ok r := by
    intro c lists hc
    cases hset : ofSettings default unhurried settings (looks text c) with
    | ok r => exact ⟨r, rfl⟩
    | error e =>
      rcases (ofSettings_decides default unhurried settings (looks text c)).1 e |>.mp hset with
        ⟨p, hp, hfault⟩ | ⟨-, p, hp, hfault⟩
      · cases hp
        cases (Blacklist.ofFile_of_storedAt htext).symm.trans (Blacklist.ofFile_of_faultyAt hfault)
      · cases hp
        cases (listsIn_eq_ok_iff.mpr hc).symm.trans (listsIn_eq_error_iff.mpr hfault)
  refine ⟨?_, ?_, ?_, ?_⟩
  · have hlists : Snapshot.StoredAt stored (Table.ofList [("strict", .ofList [a])]) :=
      .decoded hdecode
    obtain ⟨r, hr⟩ := hsucceeds stored _ hlists
    obtain ⟨-, hblacklist, ⟨lists, -, hstored, hget⟩, -, horder⟩ :=
      (ofSettings_decides default unhurried settings (looks text stored)).2 r hr
    have hb := (hblacklist "blacklist.json" rfl).unique htext
    have hl := (hstored "lists.bin" rfl).unique hlists
    have hblocks : ours.Blocks a := ⟨by decide, Blacklist.spells_plainWallet⟩
    refine ⟨r, hr, by rw [hb]; rfl, ?_, ?_, ?_, horder⟩
    · rw [hb]
      exact Blacklist.contains_ofEntries_iff.mpr ⟨ours, by simp, hblocks⟩
    · have hstrict : (Table.ofList [("strict", AddressSet.ofList [a])]).get? "strict" =
          some (.ofList [a]) := by decide
      rw [hget, hl, hstrict, Option.some_or]
    · have hother : (Table.ofList [("strict", AddressSet.ofList [a])]).get? Baseline.name =
          none := by decide
      rw [hget, hl, hother, Option.none_or, if_pos rfl]
  · refine ((ofSettings_decides default unhurried settings _).1 _).mpr ?_
    exact Or.inl ⟨_, rfl, .unreadable .notFound⟩
  · refine ((ofSettings_decides default unhurried settings _).1 _).mpr ?_
    refine Or.inr ⟨?_, _, rfl, .undecodable ?_⟩
    · intro p hp
      cases hp
      exact ⟨_, htext⟩
    · exact .truncated .count (by decide)
  · obtain ⟨r, hr⟩ := hsucceeds (.error .notDirectory) _ (.absent rfl)
    obtain ⟨-, -, ⟨lists, -, hstored, hget⟩, -⟩ :=
      (ofSettings_decides default unhurried settings (looks text (.error .notDirectory))).2 r hr
    refine ⟨r, hr, ?_⟩
    rw [hget, (hstored "lists.bin" rfl).unique (.absent rfl)]
    rfl

end Registry

end ProposerBook
