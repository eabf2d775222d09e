/-
The tasks of a book, and the flag.

The flag does not say who raised it.  It is tied to the tasks by counting: as many tasks
are in a sync of the slot map as the flag says, one or none.  Every move keeps this, for it
takes up a sync as it raises the flag and leaves it as it puts the flag down; and so does
dropping a task, which puts the flag down only if the dropped task held it.

Two more things are needed to go from a name to the task that bears it, and to know that
the first sync meets no other: no name is given twice, and while the book is being filled
for the first time there is one task.
-/
import ProposerBook.Proofs.Relay.Looks
import ProposerBook.Proofs.Relay.Run

namespace ProposerBook

namespace Relay

/-! ### What a call can do -/

/-- What somebody who has the book can make of it. -/
inductive Served (r : Relay) : Call → Relay → Prop
  /-- Something is answered. -/
  | answers (c : Call) (log : List LogEvent) : Served r c { r with log }
  /-- A block goes out. -/
  | hands (b : Block) (s : Submission) (log : List LogEvent) :
    Served r (.submit b) { r with remote := (r.remote.submit s).2, log }
  /-- A task begins, and it is not the first one. -/
  | begins (c : Call) (awaited : Bool) {purpose : Purpose} (slot : UInt64) (retries : Nat)
      (log : List LogEvent) (kind : purpose ≠ .startup) :
    Served r c { r.begin awaited purpose slot retries with log }
  | drops (id : Nat) : Served r (.abort id) (r.abort id)

theorem served_serve (r : Relay) (c : Call) : Served r c (r.serve c) := by
  cases c with
  | lookup slot =>
    show Served r _ ((if r.cache.isStale slot then r.begin false .lookup slot lookupRetries
      else r).noteOverride slot)
    obtain ⟨log, hlog⟩ := noteOverride_eq (if r.cache.isStale slot then
      r.begin false .lookup slot lookupRetries else r) slot
    rw [hlog]
    by_cases hstale : r.cache.isStale slot = true
    · rw [if_pos hstale]
      exact .begins _ _ _ _ log (by decide)
    · rw [if_neg hstale]
      exact .answers _ log
  | peek slot =>
    obtain ⟨log, hlog⟩ := noteOverride_eq r slot
    show Served r _ (r.noteOverride slot)
    rw [hlog]
    exact .answers _ log
  | inspect q =>
    obtain ⟨log, hlog⟩ := r.inspect_eq q
    show Served r _ (r.inspect q).2
    rw [hlog]
    exact .answers _ log
  | sync awaited slot retries => exact .begins _ awaited slot retries r.log (by decide)
  | syncLists awaited slot retries => exact .begins _ awaited slot retries r.log (by decide)
  | submit b =>
    show Served r _ (r.handIn b)
    unfold handIn
    simp only
    split
    · exact .answers _ _
    · exact .hands b _ _
  | abort id => exact .drops id

/-! ### The invariant -/

/-- What holds of the tasks of every book. -/
structure Sound (r : Relay) : Prop where
  /-- No two tasks have one name. -/
  distinct : (r.tasks.map Task.id).Nodup
  /-- The next name has not been given. -/
  running : ∀ t ∈ r.tasks, t.id < r.nextId
  ended : ∀ o ∈ r.outcomes, o.1 < r.nextId
  /-- As many tasks are in a sync as the flag says. -/
  flag : r.tasks.countP Task.syncs = r.syncing.toNat
  /-- The task that fills the book has it for itself. -/
  alone : ∀ t ∈ r.tasks, t.purpose = .startup → r.tasks = [t]

/-- Only the tasks, the names and the flag matter. -/
theorem Sound.congr {r s : Relay} (h : Sound r) (tasks : s.tasks = r.tasks)
    (nextId : s.nextId = r.nextId) (outcomes : s.outcomes = r.outcomes)
    (syncing : s.syncing = r.syncing) : Sound s := by
  refine ⟨?_, ?_, ?_, ?_, ?_⟩
  · rw [tasks]; exact h.distinct
  · rw [tasks, nextId]; exact h.running
  · rw [outcomes, nextId]; exact h.ended
  · rw [tasks, syncing]; exact h.flag
  · rw [tasks]; exact h.alone

theorem sound_opened (r : Relay) : Sound (opened r) := by
  refine ⟨?_, ?_, ?_, rfl, ?_⟩
  · show [0].Nodup
    decide
  · intro t ht
    rw [List.mem_singleton.mp ht]
    exact Nat.zero_lt_one
  · intro o ho
    cases ho
  · intro t ht _
    rw [List.mem_singleton.mp ht]
    rfl

/-! ### Beginning and dropping -/

theorem begin_perm (r : Relay) (awaited : Bool) (purpose : Purpose) (slot : UInt64)
    (retries : Nat) : (r.begin awaited purpose slot retries).tasks.Perm
      ({ id := r.nextId, purpose, slot, retries } :: r.tasks) := by
  unfold begin
  by_cases h : awaited = true
  · simp only [h, if_true]
    exact List.Perm.refl _
  · simp only [h]
    exact List.perm_append_comm

theorem mem_begin {r : Relay} {awaited : Bool} {purpose : Purpose} {slot : UInt64}
    {retries : Nat} {u : Task} (h : u ∈ (r.begin awaited purpose slot retries).tasks) :
    u = { id := r.nextId, purpose, slot, retries } ∨ u ∈ r.tasks :=
  List.mem_cons.mp ((begin_perm r awaited purpose slot retries).mem_iff.mp h)

theorem ne_startup_of_filled {r : Relay} (h : r.isOpening = false) :
    ∀ t ∈ r.tasks, t.purpose ≠ .startup := by
  intro t ht hkind
  have hany : r.isOpening = true := List.any_eq_true.mpr ⟨t, ht, by rw [hkind]; rfl⟩
  rw [h] at hany
  cases hany

theorem sound_begin {r : Relay} (h : Sound r) (filled : r.isOpening = false) (awaited : Bool)
    {purpose : Purpose} (slot : UInt64) (retries : Nat) (kind : purpose ≠ .startup) :
    Sound (r.begin awaited purpose slot retries) := by
  have hperm := begin_perm r awaited purpose slot retries
  refine ⟨?_, ?_, ?_, ?_, ?_⟩
  · rw [(hperm.map Task.id).nodup_iff, List.map_cons, List.nodup_cons]
    refine ⟨?_, h.distinct⟩
    intro hid
    obtain ⟨t, ht, hid⟩ := List.mem_map.mp hid
    have := h.running t ht
    simp only at hid
    omega
  · intro t ht
    show t.id < r.nextId + 1
    rcases mem_begin ht with rfl | ht
    · exact Nat.lt_succ_self _
    · exact Nat.lt_succ_of_lt (h.running t ht)
  · intro o ho
    exact Nat.lt_succ_of_lt (h.ended o ho)
  · have hwaits : ¬Task.syncs { id := r.nextId, purpose, slot, retries } = true := nofun
    rw [hperm.countP_eq, List.countP_cons_of_neg hwaits]
    exact h.flag
  · intro t ht hkind
    rcases mem_begin ht with rfl | ht
    · exact absurd hkind kind
    · exact absurd hkind (ne_startup_of_filled filled t ht)

theorem abort_eq (r : Relay) (id : Nat) : r.abort id =
    { r with
      tasks := r.tasks.filter fun t => t.id != id
      syncing := r.syncing && !(r.tasks.any fun t => t.id == id && t.syncs) } := by
  unfold abort
  refine congrArg (fun holds : Task → Bool => { r with
    tasks := r.tasks.filter fun t => t.id != id
    syncing := r.syncing && !(r.tasks.any holds) }) ?_
  funext t
  show _ = (t.id == id && t.phase.syncs)
  cases t.phase <;> rfl

theorem sound_abort {r : Relay} (h : Sound r) (id : Nat) : Sound (r.abort id) := by
  rw [abort_eq]
  refine ⟨?_, ?_, h.ended, ?_, ?_⟩
  · exact h.distinct.sublist (List.filter_sublist.map _)
  · intro t ht
    exact h.running t (List.mem_filter.mp ht).1
  · -- What is counted in all is counted among the dropped and among the others.
    have hsplit := List.countP_eq_countP_filter_add r.tasks Task.syncs fun t => t.id != id
    have hcount := h.flag
    show (r.tasks.filter fun t => t.id != id).countP Task.syncs = _
    by_cases hholds : (r.tasks.any fun t => t.id == id && t.syncs) = true
    · have hpos : 0 < (r.tasks.filter fun t => !(t.id != id)).countP Task.syncs := by
        obtain ⟨t, ht, hheld⟩ := List.any_eq_true.mp hholds
        rw [Bool.and_eq_true] at hheld
        refine List.countP_pos_iff.mpr ⟨t, List.mem_filter.mpr ⟨ht, ?_⟩, hheld.2⟩
        simpa using hheld.1
      have hone : r.syncing.toNat ≤ 1 := Bool.toNat_le _
      simp only [hholds, Bool.not_true, Bool.and_false, Bool.toNat_false]
      omega
    · have hzero : (r.tasks.filter fun t => !(t.id != id)).countP Task.syncs = 0 := by
        rw [List.countP_eq_zero]
        intro t ht hsyncs
        obtain ⟨ht, hid⟩ := List.mem_filter.mp ht
        refine hholds (List.any_eq_true.mpr ⟨t, ht, ?_⟩)
        rw [Bool.and_eq_true]
        exact ⟨by simpa using hid, hsyncs⟩
      have hno := Bool.eq_false_iff.mpr hholds
      simp only [hno, Bool.not_false, Bool.and_true]
      omega
  · intro t ht hkind
    obtain ⟨ht, hid⟩ := List.mem_filter.mp ht
    show (r.tasks.filter fun t => t.id != id) = [t]
    rw [h.alone t ht hkind]
    exact List.filter_cons_of_pos hid

/-! ### Moving -/

theorem moved_eq (r : Relay) (before : List Task) (t : Task) (after : List Task) :
    r.moved before t after =
      { (r.move t).1 with
        tasks := before ++ ((r.move t).2.remains t ++ after)
        outcomes := (r.move t).2.record t ++ (r.move t).1.outcomes } := rfl

theorem countP_remains (p : Progress) (t : Task) :
    (p.remains t).countP Task.syncs = p.syncs.toNat := by
  cases p with
  | goesOn phase =>
    show List.countP Task.syncs [{ t with phase }] = phase.syncs.toNat
    rw [List.countP_singleton]
    show (if phase.syncs = true then 1 else 0) = phase.syncs.toNat
    cases phase.syncs <;> rfl
  | ends o => rfl

/-- A task keeps its name and its purpose as long as it is there. -/
theorem mem_remains {p : Progress} {t u : Task} (h : u ∈ p.remains t) :
    p.remains t = [u] ∧ u.id = t.id ∧ u.purpose = t.purpose := by
  cases p with
  | goesOn phase =>
    rw [List.mem_singleton.mp h]
    exact ⟨rfl, rfl, rfl⟩
  | ends o => cases h

theorem mem_remains_slot {p : Progress} {t u : Task} (h : u ∈ p.remains t) :
    u.slot = t.slot := by
  cases p with
  | goesOn phase =>
    rw [List.mem_singleton.mp h]
  | ends o => cases h

theorem remains_names (p : Progress) (t : Task) :
    ((p.remains t).map Task.id).Sublist [t.id] := by
  cases p with
  | goesOn phase => exact List.Sublist.refl _
  | ends o => exact List.nil_sublist _

theorem mem_moved {r : Relay} {before after : List Task} {t u : Task}
    (h : u ∈ (r.moved before t after).tasks) :
    u ∈ before ++ after ∨ u ∈ (r.move t).2.remains t := by
  rcases List.mem_append.mp h with hu | hu
  · exact Or.inl (List.mem_append_left _ hu)
  · rcases List.mem_append.mp hu with hu | hu
    · exact Or.inr hu
    · exact Or.inl (List.mem_append_right _ hu)

theorem mem_of_others {r : Relay} {before after : List Task} {t u : Task}
    (tasks : r.tasks = before ++ t :: after) (hu : u ∈ before ++ after) : u ∈ r.tasks := by
  rw [tasks]
  rcases List.mem_append.mp hu with hu | hu
  · exact List.mem_append_left _ hu
  · exact List.mem_append_right _ (List.mem_cons_of_mem _ hu)

/-- Whoever fills the book has nobody before it or after it. -/
theorem Sound.others_eq_nil {r : Relay} (h : Sound r) {before after : List Task} {t u : Task}
    (tasks : r.tasks = before ++ t :: after) (hu : u ∈ r.tasks) (kind : u.purpose = .startup) :
    before = [] ∧ after = [] := by
  have hlist := h.alone u hu kind
  rw [tasks] at hlist
  have hlen := congrArg List.length hlist
  rw [List.length_append, List.length_cons, List.length_singleton] at hlen
  exact ⟨List.eq_nil_of_length_eq_zero (by omega), List.eq_nil_of_length_eq_zero (by omega)⟩

/-- Who is in a sync has raised the flag. -/
theorem Sound.syncing_of_syncs {r : Relay} (h : Sound r) {t : Task} (ht : t ∈ r.tasks)
    (hs : t.syncs = true) : r.syncing = true := by
  have hpos : 0 < r.tasks.countP Task.syncs := List.countP_pos_iff.mpr ⟨t, ht, hs⟩
  rw [h.flag] at hpos
  cases hb : r.syncing with
  | true => rfl
  | false =>
    rw [hb] at hpos
    cases hpos

theorem sound_moved {r : Relay} (h : Sound r) {before after : List Task} {t : Task}
    (tasks : r.tasks = before ++ t :: after) : Sound (r.moved before t after) := by
  have ht : t ∈ r.tasks := by
    rw [tasks]
    exact List.mem_append_right _ List.mem_cons_self
  obtain ⟨cache, syncing, registry, remote, log, hmove⟩ := move_frame r t
  have hnext : (r.moved before t after).nextId = r.nextId := by
    rw [moved_eq, hmove]
  refine ⟨?_, ?_, ?_, ?_, ?_⟩
  · have hnames := h.distinct
    rw [tasks, List.map_append, List.map_cons] at hnames
    rw [moved_eq]
    simp only [List.map_append]
    refine hnames.sublist ?_
    exact (List.Sublist.refl _).append ((remains_names _ t).append (List.Sublist.refl _))
  · intro u hu
    rw [hnext]
    rcases mem_moved hu with hu | hu
    · exact h.running u (mem_of_others tasks hu)
    · rw [(mem_remains hu).2.1]
      exact h.running t ht
  · intro o ho
    rw [hnext]
    rw [moved_eq, hmove] at ho
    rcases List.mem_append.mp ho with ho | ho
    · cases hp : (r.move t).2 with
      | goesOn phase =>
        rw [hp] at ho
        cases ho
      | ends x =>
        rw [hp] at ho
        rw [List.mem_singleton.mp ho]
        exact h.running t ht
    · exact h.ended o ho
  · -- The others count as before, and `t` counts with the flag.
    have hcount := h.flag
    have hflag := move_flag (h.syncing_of_syncs ht)
    have hone : (if t.syncs = true then 1 else 0) = t.syncs.toNat := by
      cases t.syncs <;> rfl
    rw [tasks, List.countP_append, List.countP_cons, hone] at hcount
    rw [moved_eq]
    simp only [List.countP_append, countP_remains]
    omega
  · intro u hu hkind
    rcases mem_moved hu with hu | hu
    · obtain ⟨hbefore, hafter⟩ := h.others_eq_nil tasks (mem_of_others tasks hu) hkind
      rw [hbefore, hafter] at hu
      cases hu
    · obtain ⟨hlist, -, hsame⟩ := mem_remains hu
      obtain ⟨hbefore, hafter⟩ := h.others_eq_nil tasks ht (hsame ▸ hkind)
      rw [moved_eq, hbefore, hafter, hlist]
      rfl

/-! ### At all times -/

theorem sound_occur {r : Relay} (h : Sound r) (e : Event) : Sound (r.occur e) := by
  cases e with
  | call c =>
    show Sound (if r.isOpening then r else r.serve c)
    by_cases hopening : r.isOpening = true
    · rw [if_pos hopening]
      exact h
    · rw [if_neg hopening]
      have hserved := served_serve r c
      generalize r.serve c = s at hserved ⊢
      cases hserved with
      | answers => exact h.congr rfl rfl rfl rfl
      | hands => exact h.congr rfl rfl rfl rfl
      | begins _ awaited slot retries log kind =>
        exact (sound_begin h (Bool.eq_false_iff.mpr hopening) awaited slot retries kind).congr
          rfl rfl rfl rfl
      | drops id => exact sound_abort h id
  | move id =>
    unfold occur
    simp only
    split
    · exact h
    · rename_i hready
      exact sound_moved h (ready?_eq_some hready).1
  | pass ms => exact h.congr rfl rfl rfl rfl
  | answers remote => exact h.congr rfl rfl rfl rfl
  | register slot p => exact h.congr rfl rfl rfl rfl
  | unregister slot => exact h.congr rfl rfl rfl rfl
  | registry o => exact h.congr rfl rfl rfl rfl

/-- **Whatever happens, names stay distinct and the flag stays right.** -/
theorem Reachable.sound {s : Relay} (h : Reachable s) : Sound s :=
  h.induct sound_opened fun _ e hr => sound_occur hr e

/-! ### Names -/

theorem Sound.others {r : Relay} (h : Sound r) {before after : List Task} {t : Task}
    (tasks : r.tasks = before ++ t :: after) : ∀ u ∈ before ++ after, u.id ≠ t.id := by
  have hnames := h.distinct
  rw [tasks, List.map_append, List.map_cons, List.nodup_append, List.nodup_cons] at hnames
  intro u hu
  rcases List.mem_append.mp hu with hu | hu
  · exact hnames.2.2 u.id (List.mem_map_of_mem hu) t.id List.mem_cons_self
  · intro hid
    exact hnames.2.1.1 (hid ▸ List.mem_map_of_mem hu)

theorem Sound.eq_of_id {r : Relay} (h : Sound r) {t u : Task} (ht : t ∈ r.tasks)
    (hu : u ∈ r.tasks) (hid : u.id = t.id) : u = t := by
  obtain ⟨before, after, htasks⟩ := List.append_of_mem ht
  have hothers := h.others htasks
  rw [htasks] at hu
  rcases List.mem_append.mp hu with hu | hu
  · exact absurd hid (hothers u (List.mem_append_left _ hu))
  · rcases List.mem_cons.mp hu with hu | hu
    · exact hu
    · exact absurd hid (hothers u (List.mem_append_right _ hu))

/-- The next name is nobody's, and so nothing has ended under it. -/
theorem Sound.outcome?_nextId {r : Relay} (h : Sound r) : r.outcome? r.nextId = none := by
  cases ho : r.outcome? r.nextId with
  | none => rfl
  | some o =>
    obtain ⟨before, after, hsplit, -⟩ := List.lookup_eq_some_iff.mp ho
    have hmem : (r.nextId, o) ∈ r.outcomes := by
      rw [hsplit]
      exact List.mem_append_right _ List.mem_cons_self
    exact absurd (h.ended _ hmem) (Nat.lt_irrefl _)

/-- A task whose time has come is the one that its name lets move. -/
theorem Sound.ready {r : Relay} (h : Sound r) {before after : List Task} {t : Task}
    (tasks : r.tasks = before ++ t :: after) (due : t.phase.due ≤ r.now) :
    r.ready? t.id = some (before, t, after) :=
  ready?_of_tasks tasks (fun u hu => h.others tasks u (List.mem_append_left _ hu)) due

theorem Sound.occur_move {r : Relay} (h : Sound r) {before after : List Task} {t : Task}
    (tasks : r.tasks = before ++ t :: after) (due : t.phase.due ≤ r.now) :
    r.occur (.move t.id) = r.moved before t after :=
  occur_of_ready (h.ready tasks due)

/-! ### Where a task comes from -/

/-- With a call the task `t` is begun. -/
inductive Begun (r : Relay) : Call → Task → Prop
  | lookup (slot : UInt64) (stale : r.cache.isStale slot = true) :
    Begun r (.lookup slot) { id := r.nextId, purpose := .lookup, slot, retries := lookupRetries }
  | sync (awaited : Bool) (slot : UInt64) (retries : Nat) :
    Begun r (.sync awaited slot retries) { id := r.nextId, purpose := .validators, slot, retries }
  | syncLists (awaited : Bool) (slot : UInt64) (retries : Nat) :
    Begun r (.syncLists awaited slot retries) { id := r.nextId, purpose := .lists, slot, retries }

theorem Begun.waits {r : Relay} {c : Call} {t : Task} (h : Begun r c t) :
    t.phase = .waiting := by
  cases h with
  | lookup => rfl
  | sync => rfl
  | syncLists => rfl

theorem mem_serve {r : Relay} {c : Call} {u : Task} (h : u ∈ (r.serve c).tasks) :
    u ∈ r.tasks ∨ Begun r c u := by
  cases c with
  | lookup slot =>
    have hserve : r.serve (.lookup slot) = (if r.cache.isStale slot then
      r.begin false .lookup slot lookupRetries else r).noteOverride slot := rfl
    obtain ⟨log, hlog⟩ := noteOverride_eq (if r.cache.isStale slot then
      r.begin false .lookup slot lookupRetries else r) slot
    rw [hserve, hlog] at h
    by_cases hstale : r.cache.isStale slot = true
    · rw [if_pos hstale] at h
      have hbegin : u ∈ (r.begin false .lookup slot lookupRetries).tasks := h
      rcases mem_begin hbegin with rfl | hu
      · exact Or.inr (.lookup slot hstale)
      · exact Or.inl hu
    · rw [if_neg hstale] at h
      exact Or.inl h
  | sync awaited slot retries =>
    rcases mem_begin h with rfl | hu
    · exact Or.inr (.sync awaited slot retries)
    · exact Or.inl hu
  | syncLists awaited slot retries =>
    rcases mem_begin h with rfl | hu
    · exact Or.inr (.syncLists awaited slot retries)
    · exact Or.inl hu
  | peek slot =>
    obtain ⟨log, hlog⟩ := noteOverride_eq r slot
    have hserve : r.serve (.peek slot) = r.noteOverride slot := rfl
    rw [hserve, hlog] at h
    exact Or.inl h
  | inspect q =>
    obtain ⟨log, hlog⟩ := r.inspect_eq q
    have hserve : r.serve (.inspect q) = (r.inspect q).2 := rfl
    rw [hserve, hlog] at h
    exact Or.inl h
  | submit b =>
    have hserve : r.serve (.submit b) = r.handIn b := rfl
    rw [hserve] at h
    unfold handIn at h
    simp only at h
    split at h
    · exact Or.inl h
    · exact Or.inl h
  | abort id =>
    have hserve : r.serve (.abort id) = r.abort id := rfl
    rw [hserve, abort_eq] at h
    exact Or.inl (List.mem_filter.mp h).1

/-- **Who is there after an event was there and has not moved, or has been begun, or is what is
left of the task that has moved.** -/
theorem Sound.mem_occur {r : Relay} (h : Sound r) {e : Event} {u : Task}
    (hu : u ∈ (r.occur e).tasks) :
    (u ∈ r.tasks ∧ (e = .move u.id → r.ready? u.id = none)) ∨
    (∃ c, e = .call c ∧ Begun r c u) ∨
    ∃ before t after, e = .move t.id ∧ r.ready? t.id = some (before, t, after) ∧
      u ∈ (r.move t).2.remains t := by
  cases e with
  | call c =>
    have hcall : r.occur (.call c) = if r.isOpening then r else r.serve c := rfl
    rw [hcall] at hu
    by_cases hopening : r.isOpening = true
    · rw [if_pos hopening] at hu
      exact Or.inl ⟨hu, nofun⟩
    · rw [if_neg hopening] at hu
      rcases mem_serve hu with hu | hbegun
      · exact Or.inl ⟨hu, nofun⟩
      · exact Or.inr (Or.inl ⟨c, rfl, hbegun⟩)
  | move id =>
    unfold occur at hu
    simp only at hu
    split at hu
    · rename_i hnone
      refine Or.inl ⟨hu, ?_⟩
      intro hid
      rw [← Event.move.inj hid]
      exact hnone
    · rename_i before t after hready
      obtain ⟨htasks, rfl, -⟩ := ready?_eq_some hready
      rcases mem_moved hu with hu | hu
      · refine Or.inl ⟨mem_of_others htasks hu, ?_⟩
        intro hid
        exact absurd (Event.move.inj hid).symm (h.others htasks u hu)
      · exact Or.inr (Or.inr ⟨before, t, after, rfl, hready, hu⟩)
  | pass ms => exact Or.inl ⟨hu, nofun⟩
  | answers remote => exact Or.inl ⟨hu, nofun⟩
  | register slot p => exact Or.inl ⟨hu, nofun⟩
  | unregister slot => exact Or.inl ⟨hu, nofun⟩
  | registry o => exact Or.inl ⟨hu, nofun⟩

end Relay

end ProposerBook
