/-
From epoch to epoch.

A lookup starts a sync if the cache is from an earlier epoch than its slot.  But the sync begins
later, when its task makes its first move, and nobody looks at the cache again then.  If another
sync has succeeded in between, the task may go back to an earlier epoch, or fetch the same
epoch once more.

Nothing else can go wrong.  While a task is in its sync no other one can touch the cache, so a
task that finds the cache behind its slot as it raises the flag also finds it so when it
succeeds.  If that is the case for all of them, and nobody but lookups asks for syncs, each
success is for a later epoch than the one before.  And if it is not the case for one, its
lookup was overtaken by another success (`overtaken_of_fresh`).
-/
import ProposerBook.Proofs.Relay.Cache

namespace ProposerBook

/-- Somebody asks for a sync of the slot map, other than by a lookup. -/
def Event.isSync : Event → Bool
  | .call (.sync ..) => true
  | _ => false

/-- Before the first success every slot is ahead. -/
theorem Cache.isStale_of_none {c : Cache} (h : c.lastSynced = none) (slot : UInt64) :
    c.isStale slot = true := by
  unfold isStale
  rw [h]

theorem Cache.isStale_of_some {c : Cache} {last : UInt64} (h : c.lastSynced = some last)
    (slot : UInt64) : c.isStale slot = true ↔ epoch last < epoch slot := by
  unfold isStale
  rw [h]
  exact decide_eq_true_iff

/-- How a task stands to the cache while nobody but lookups asks for syncs, and none of them begins
for an epoch that the cache has already. -/
structure Task.Ahead (c : Cache) (t : Task) : Prop where
  /-- Only lookups ask. -/
  kind : t.purpose ≠ .validators
  /-- The cache is empty until the first sync is under way. -/
  first : t.purpose = .startup → t.phase = .waiting → c.lastSynced = none
  /-- Who is in a sync is ahead of the cache. -/
  ahead : t.syncs = true → c.isStale t.slot = true

namespace Relay

/-! ### Taking the flag -/

/-- With `e` the task of a lookup of `slot` raises the flag. -/
def Raises (r : Relay) (e : Event) (id : Nat) (slot : UInt64) : Prop :=
  ∃ t ∈ r.tasks, e = .move id ∧ t.id = id ∧ t.slot = slot ∧ t.phase = .waiting ∧
    t.purpose = .lookup ∧ r.syncing = false

/-- No task comes back to where it waits for its first move. -/
theorem move_ne_waiting (r : Relay) (t : Task) : (r.move t).2 ≠ .goesOn .waiting := by
  have hbegins : ∀ s : Relay, (s.beginLists t).2 ≠ .goesOn .waiting := by
    intro s
    obtain ⟨log, hlog⟩ := beginLists_eq s t
    rw [hlog]
    split
    · nofun
    · nofun
  have hends : ∀ (s : Relay) o, (s.endValidators t o).2 ≠ .goesOn .waiting := by
    intro s o
    obtain ⟨log, hlog⟩ := endValidators_eq s t o
    rw [hlog]
    split
    · exact hbegins _
    · nofun
  have hturn := turn_move r t
  generalize r.move t = x at hturn ⊢
  cases hturn with
  | refused => exact hends _ _
  | begins => nofun
  | asksAgain => nofun
  | succeeds => exact hends _ _
  | fails => exact hends _ _
  | pauses => nofun
  | beginsLists => exact hbegins _
  | asksListsAgain => nofun
  | listsSucceed =>
    rw [endLists_ends]
    nofun
  | listsFail =>
    rw [endLists_ends]
    nofun
  | listsPause => nofun

/-- A sync of the lists alone does not take the flag. -/
theorem move_syncs_of_lists {r : Relay} {t : Task} (waits : t.phase = .waiting)
    (kind : t.purpose = .lists) : (r.move t).2.syncs = false := by
  have hmove : r.move t = r.beginLists t := by
    unfold move
    rw [waits, kind]
  obtain ⟨remote, log, p, hbegins, hp⟩ := beginLists_frame r t
  rw [hmove, hbegins]
  exact hp

/-! ### The invariant -/

/-- Every task is ahead of the cache. -/
def Forward (r : Relay) : Prop := ∀ t ∈ r.tasks, t.Ahead r.cache

theorem forward_opened (r : Relay) : Forward (opened r) := by
  intro t ht
  rw [List.mem_singleton.mp ht]
  exact ⟨nofun, fun _ _ => rfl, fun _ => rfl⟩

/-- While a sync succeeds nobody but its task is in a sync, least of all in the first one. -/
theorem Sound.others_of_succeeds {r : Relay} (h : Sound r) {e : Event} {slot : UInt64}
    {rs : List Registration} {u : Task} (hs : r.Succeeds e slot rs) (hu : u ∈ r.tasks)
    (still : e = .move u.id → r.ready? u.id = none) :
    u.syncs = false ∧ u.purpose ≠ .startup := by
  obtain ⟨t, ht, hdue, rfl, -, hbrings⟩ := hs
  have hother : t ≠ u := by
    rintro rfl
    obtain ⟨before, after, htasks⟩ := List.append_of_mem ht
    have hnone := still rfl
    rw [h.ready htasks hdue] at hnone
    cases hnone
  refine ⟨?_, ?_⟩
  · rw [Bool.eq_false_iff]
    intro hsyncs
    exact hother (h.syncs_unique ht hu (syncs_of_asks (asks_of_brings hbrings)) hsyncs)
  · intro hkind
    rw [h.alone u hu hkind] at ht
    exact hother (List.mem_singleton.mp ht)

theorem Begun.kind {r : Relay} {c : Call} {t : Task} (h : Begun r c t)
    (nobody : (Event.call c).isSync = false) : t.purpose = .lookup ∨ t.purpose = .lists := by
  cases h with
  | lookup => exact Or.inl rfl
  | sync => cases nobody
  | syncLists => exact Or.inr rfl

/-- A move after which a task is in a sync leaves it ahead of the cache. -/
theorem Forward.move_ahead {r : Relay} (h : Forward r) {t : Task} (ht : t ∈ r.tasks)
    (timely : ∀ slot, r.Raises (.move t.id) t.id slot → r.cache.isStale slot = true)
    (syncs : (r.move t).2.syncs = true) : (r.move t).1.cache.isStale t.slot = true := by
  have hlists := move_syncs_of_lists (r := r) (t := t)
  have heffect := effect_move r t
  generalize r.move t = x at hlists heffect syncs ⊢
  cases heffect with
  | none registry remote log p before after =>
    rw [after] at syncs
    cases syncs
  | goesOn remote log p before => exact (h t ht).ahead before
  | succeeds rs remote log p full after =>
    rw [after] at syncs
    cases syncs
  | fails remote log p before after =>
    rw [after] at syncs
    cases syncs
  | begins remote log p waits down =>
    cases hkind : t.purpose with
    | startup => exact Cache.isStale_of_none ((h t ht).first hkind waits) _
    | lookup => exact timely t.slot ⟨t, ht, rfl, rfl, rfl, waits, hkind, down⟩
    | validators => exact absurd hkind (h t ht).kind
    | lists =>
      rw [hlists waits hkind] at syncs
      cases syncs

/-- **One more event keeps every task ahead of the cache.** -/
theorem Forward.occur {r : Relay} (h : Forward r) (sound : Sound r) {e : Event}
    (nobody : e.isSync = false)
    (timely : ∀ id slot, r.Raises e id slot → r.cache.isStale slot = true) :
    Forward (r.occur e) := by
  intro u hu
  rcases sound.mem_occur hu with
    ⟨hu, still⟩ | ⟨c, rfl, hbegun⟩ | ⟨before, t, after, rfl, hready, hu⟩
  · rcases sound.occur_cache e with ⟨slot, rs, hs, -⟩ | ⟨-, hcache⟩
    · obtain ⟨hidle, hkind⟩ := sound.others_of_succeeds hs hu still
      refine ⟨(h u hu).kind, fun hfirst => absurd hfirst hkind, ?_⟩
      intro hsyncs
      rw [hidle] at hsyncs
      cases hsyncs
    · rw [hcache]
      exact h u hu
  · have hidle : u.syncs = false := by
      unfold Task.syncs
      rw [hbegun.waits]
      rfl
    rcases hbegun.kind nobody with hkind | hkind
    · refine ⟨?_, ?_, ?_⟩ <;> simp [hkind, hidle]
    · refine ⟨?_, ?_, ?_⟩ <;> simp [hkind, hidle]
  · have ht := mem_of_ready hready
    cases hp : (r.move t).2 with
    | ends o =>
      rw [hp] at hu
      cases hu
    | goesOn phase =>
      rw [hp] at hu
      rw [List.mem_singleton.mp hu, cache_of_ready hready]
      refine ⟨(h t ht).kind, ?_, ?_⟩
      · intro _ hwaits
        have hphase : phase = .waiting := hwaits
        rw [hphase] at hp
        exact absurd hp (move_ne_waiting r t)
      · intro hsyncs
        refine h.move_ahead ht (timely t.id) ?_
        rw [hp]
        exact hsyncs

/-! ### Runs -/

/-- Whenever the task of a lookup takes the flag, the cache is still behind its slot. -/
def Timely (r : Relay) (es : List Event) : Prop :=
  ∀ k e id slot, es[k]? = some e → (r.stage es k).Raises e id slot →
    (r.stage es k).cache.isStale slot = true

theorem forward_stage {r : Relay} {es : List Event} (nobody : ∀ e ∈ es, e.isSync = false)
    (timely : (opened r).Timely es) (k : Nat) : Forward ((opened r).stage es k) := by
  induction k with
  | zero => exact forward_opened r
  | succ k ih =>
    cases he : es[k]? with
    | none =>
      rw [stage_succ_of_none he]
      exact ih
    | some e =>
      rw [stage_succ he]
      exact ih.occur (Reachable.stage r es k).sound (nobody e (List.mem_of_getElem? he))
        fun id slot => timely k e id slot he

theorem Forward.stale_of_succeeds {r : Relay} (h : Forward r) {e : Event} {slot : UInt64}
    {rs : List Registration} (hs : r.Succeeds e slot rs) : r.cache.isStale slot = true := by
  obtain ⟨t, ht, -, -, rfl, hbrings⟩ := hs
  exact (h t ht).ahead (syncs_of_asks (asks_of_brings hbrings))

theorem Sound.lastSynced_of_succeeds {r : Relay} (h : Sound r) {e : Event} {slot : UInt64}
    {rs : List Registration} (hs : r.Succeeds e slot rs) :
    (r.occur e).cache.lastSynced = some slot := by
  obtain ⟨t, ht, hdue, rfl, rfl, hbrings⟩ := hs
  obtain ⟨before, after, htasks⟩ := List.append_of_mem ht
  rw [cache_of_ready (h.ready htasks hdue), move_cache, hbrings]

/-- The cache is from the epoch of `slot` or a later one. -/
def Reaches (r : Relay) (slot : UInt64) : Prop :=
  ∃ last, r.cache.lastSynced = some last ∧ epoch slot ≤ epoch last

theorem Forward.reaches_occur {r : Relay} (h : Forward r) (sound : Sound r) {e : Event}
    {slot : UInt64} (reaches : r.Reaches slot) : (r.occur e).Reaches slot := by
  rcases sound.occur_cache e with ⟨target, rs, hs, hcache⟩ | ⟨-, hcache⟩
  · obtain ⟨last, hlast, hle⟩ := reaches
    have hlt := (Cache.isStale_of_some hlast target).mp (h.stale_of_succeeds hs)
    refine ⟨target, ?_, UInt64.le_trans hle (UInt64.le_of_lt hlt)⟩
    rw [hcache]
  · unfold Reaches
    rw [hcache]
    exact reaches

/-- **Epochs do not go back.** -/
theorem reaches_of_le {r : Relay} {es : List Event} (nobody : ∀ e ∈ es, e.isSync = false)
    (timely : (opened r).Timely es) {i j : Nat} {slot : UInt64} (hij : i ≤ j)
    (reaches : ((opened r).stage es i).Reaches slot) : ((opened r).stage es j).Reaches slot := by
  refine stage_induct (P := fun s => s.Reaches slot) reaches ?_ hij
  intro k e _ _ hk
  exact (forward_stage nobody timely k).reaches_occur (Reachable.stage r es k).sound hk

/-! ### Lookups that are overtaken -/

/-- The task of a lookup has been begun by it, when the cache was behind its slot. -/
theorem exists_lookup {r : Relay} {es : List Event} {k : Nat} {t : Task}
    (ht : t ∈ ((opened r).stage es k).tasks) (kind : t.purpose = .lookup) :
    ∃ i, i < k ∧ es[i]? = some (.call (.lookup t.slot)) ∧
      ((opened r).stage es i).nextId = t.id ∧
      ((opened r).stage es i).cache.isStale t.slot = true := by
  induction k generalizing t with
  | zero =>
    rw [stage_zero] at ht
    rw [List.mem_singleton.mp ht] at kind
    cases kind
  | succ k ih =>
    have hbefore : ∀ u ∈ ((opened r).stage es k).tasks, u.purpose = .lookup → u.id = t.id →
        u.slot = t.slot → ∃ i, i < k + 1 ∧ es[i]? = some (.call (.lookup t.slot)) ∧
          ((opened r).stage es i).nextId = t.id ∧
          ((opened r).stage es i).cache.isStale t.slot = true := by
      intro u hu hkind hid hslot
      obtain ⟨i, hi, hrest⟩ := ih hu hkind
      rw [hid, hslot] at hrest
      exact ⟨i, Nat.lt_succ_of_lt hi, hrest⟩
    cases he : es[k]? with
    | none =>
      rw [stage_succ_of_none he] at ht
      exact hbefore t ht kind rfl rfl
    | some e =>
      rw [stage_succ he] at ht
      rcases (Reachable.stage r es k).sound.mem_occur ht with
        ⟨hu, -⟩ | ⟨c, rfl, hbegun⟩ | ⟨before, u, after, rfl, hready, hu⟩
      · exact hbefore t hu kind rfl rfl
      · cases hbegun with
        | lookup slot stale => exact ⟨k, Nat.lt_succ_self k, he, rfl, stale⟩
        | sync => cases kind
        | syncLists => cases kind
      · obtain ⟨-, hid, hkind⟩ := mem_remains hu
        exact hbefore u (mem_of_ready hready) (hkind.symm.trans kind) hid.symm
          (mem_remains_slot hu).symm

/-- **Who takes the flag for an epoch that the cache has already was overtaken**: since its lookup
another sync has succeeded. -/
theorem overtaken_of_fresh {r : Relay} {es : List Event} {k id : Nat} {e : Event} {slot : UInt64}
    (raises : ((opened r).stage es k).Raises e id slot)
    (fresh : ((opened r).stage es k).cache.isStale slot = false) :
    ∃ i j f target rs, i < j ∧ j < k ∧ es[i]? = some (.call (.lookup slot)) ∧
      ((opened r).stage es i).nextId = id ∧ ((opened r).stage es i).cache.isStale slot = true ∧
      es[j]? = some f ∧ ((opened r).stage es j).Succeeds f target rs := by
  obtain ⟨t, ht, -, rfl, rfl, -, hkind, -⟩ := raises
  obtain ⟨i, hik, hlookup, hid, hstale⟩ := exists_lookup ht hkind
  refine Classical.byContradiction fun hno => ?_
  -- If none has succeeded, the cache is as it was at the time of the lookup.
  have hcache : ∀ j, i ≤ j → j ≤ k →
      ((opened r).stage es j).cache = ((opened r).stage es i).cache := by
    intro j hij
    induction hij with
    | refl => exact fun _ => rfl
    | @step j hij ih =>
      intro hjk
      rw [← ih (Nat.le_of_succ_le hjk)]
      cases hf : es[j]? with
      | none => rw [stage_succ_of_none hf]
      | some f =>
        rw [stage_succ hf]
        rcases (Reachable.stage r es j).sound.occur_cache f with ⟨target, rs, hs, -⟩ | ⟨-, hsame⟩
        · rcases Nat.eq_or_lt_of_le hij with rfl | hij
          · obtain ⟨u, -, -, hmove, -⟩ := hs
            rw [hlookup, hmove] at hf
            cases hf
          · exact absurd ⟨i, j, f, target, rs, hij, hjk, hlookup, hid, hstale, hf, hs⟩ hno
        · exact hsame
  rw [hcache k (Nat.le_of_lt hik) (Nat.le_refl k), hstale] at fresh
  cases fresh

/-! ### The main result -/

/--
**From success to success the epoch moves forward.**  If nobody but lookups asks for syncs, and the
task of each lookup takes the flag while the cache is still behind its slot, then the epoch of
the last success never goes back, and of two successes the later one is for a later epoch.
-/
theorem epochs_move_forward {r : Relay} {es : List Event} (nobody : ∀ e ∈ es, e.isSync = false)
    (timely : (opened r).Timely es) :
    (∀ i j last, i ≤ j → ((opened r).stage es i).cache.lastSynced = some last →
      ∃ last', ((opened r).stage es j).cache.lastSynced = some last' ∧
        epoch last ≤ epoch last') ∧
    ∀ i j e f slot₁ slot₂ rs₁ rs₂, i < j → es[i]? = some e → es[j]? = some f →
      ((opened r).stage es i).Succeeds e slot₁ rs₁ →
      ((opened r).stage es j).Succeeds f slot₂ rs₂ → epoch slot₁ < epoch slot₂ := by
  refine ⟨?_, ?_⟩
  · intro i j last hij hlast
    exact reaches_of_le nobody timely hij ⟨last, hlast, UInt64.le_refl _⟩
  · intro i j e f slot₁ slot₂ rs₁ rs₂ hij he hf hs₁ hs₂
    have hnow : ((opened r).stage es (i + 1)).cache.lastSynced = some slot₁ := by
      rw [stage_succ he]
      exact (Reachable.stage r es i).sound.lastSynced_of_succeeds hs₁
    obtain ⟨last, hlast, hle⟩ :=
      reaches_of_le nobody timely hij ⟨slot₁, hnow, UInt64.le_refl _⟩
    have hstale := (forward_stage nobody timely j).stale_of_succeeds hs₂
    exact UInt64.lt_of_le_of_lt hle ((Cache.isStale_of_some hlast slot₂).mp hstale)

/-- A new book whose other side answers at once, and knows no proposers. -/
def answering : Relay :=
  { settings := { endpoint := { scheme := [], authority := none, path := .plain [] } } }

/-- Two lookups, each of which is served before the next one. -/
def unhurried : List Event :=
  [.move 0, .move 0, .call (.lookup 32), .move 1, .move 1, .call (.lookup 64), .move 2, .move 2]

theorem timely_unhurried : (opened answering).Timely unhurried := by
  intro k e id slot he hraises
  obtain ⟨t, ht, rfl, -, rfl, hwaits, hkind, -⟩ := hraises
  obtain ⟨hk, -⟩ := List.getElem?_eq_some_iff.mp he
  have hlength : unhurried.length = 8 := rfl
  have hcases : k = 0 ∨ k = 1 ∨ k = 2 ∨ k = 3 ∨ k = 4 ∨ k = 5 ∨ k = 6 ∨ k = 7 := by omega
  -- At each stage there is one task or none, and it is a lookup's first move at two of them.
  rcases hcases with rfl | rfl | rfl | rfl | rfl | rfl | rfl | rfl
  · rw [List.mem_singleton.mp ht] at hkind
    cases hkind
  · rw [List.mem_singleton.mp ht] at hkind
    cases hkind
  · cases he
  · rw [List.mem_singleton.mp ht]
    rfl
  · rw [List.mem_singleton.mp ht] at hwaits
    cases hwaits
  · cases he
  · rw [List.mem_singleton.mp ht]
    rfl
  · rw [List.mem_singleton.mp ht] at hwaits
    cases hwaits

theorem epochs_move_forward_unhurried :
    (∀ e ∈ unhurried, e.isSync = false) ∧ (opened answering).Timely unhurried ∧
    ((opened answering).stage unhurried 5).cache.lastSynced = some 32 ∧
    ∃ last, ((opened answering).stage unhurried 8).cache.lastSynced = some last ∧
      epoch 32 ≤ epoch last := by
  have hnobody : ∀ e ∈ unhurried, e.isSync = false := by simp [unhurried, Event.isSync]
  exact ⟨hnobody, timely_unhurried, rfl,
    (epochs_move_forward hnobody timely_unhurried).1 5 8 32 (by decide) rfl⟩

/-- Three lookups before the first of their tasks moves. -/
def hurried : List Event :=
  [.move 0, .move 0, .call (.lookup 64), .call (.lookup 65), .call (.lookup 32), .move 1, .move 1,
    .move 2, .move 2, .move 3, .move 3]

/-- Without that the epoch may go back, and an epoch may be fetched twice. -/
theorem epochs_move_back_hurried :
    (¬∀ (r : Relay) (es : List Event), (∀ e ∈ es, e.isSync = false) →
      ∀ i j last, i ≤ j → ((opened r).stage es i).cache.lastSynced = some last →
        ∃ last', ((opened r).stage es j).cache.lastSynced = some last' ∧
          epoch last ≤ epoch last') ∧
    ¬∀ (r : Relay) (es : List Event), (∀ e ∈ es, e.isSync = false) →
      ∀ i j e f slot₁ slot₂ rs₁ rs₂, i < j → es[i]? = some e → es[j]? = some f →
        ((opened r).stage es i).isOpening = false →
        ((opened r).stage es i).Succeeds e slot₁ rs₁ →
        ((opened r).stage es j).Succeeds f slot₂ rs₂ → epoch slot₁ ≠ epoch slot₂ := by
  have hnobody : ∀ e ∈ hurried, e.isSync = false := by simp [hurried, Event.isSync]
  refine ⟨?_, ?_⟩
  · intro hall
    obtain ⟨last, hlast, hle⟩ := hall answering hurried hnobody 9 11 65 (by decide) rfl
    have hend : ((opened answering).stage hurried 11).cache.lastSynced = some 32 := rfl
    rw [hend, Option.some.injEq] at hlast
    subst hlast
    exact absurd hle (by decide)
  · intro hall
    have hfirst : ((opened answering).stage hurried 6).Succeeds (.move 1) 64 [] :=
      ⟨_, List.mem_cons_self, Nat.le_refl _, rfl, rfl, rfl⟩
    have hsecond : ((opened answering).stage hurried 8).Succeeds (.move 2) 65 [] :=
      ⟨_, List.mem_cons_self, Nat.le_refl _, rfl, rfl, rfl⟩
    exact hall answering hurried hnobody 6 8 _ _ 64 65 [] [] (by decide) rfl rfl rfl hfirst
      hsecond (by decide)

end Relay

end ProposerBook
