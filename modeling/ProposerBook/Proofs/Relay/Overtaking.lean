/-
Which of two answers stands.

Any number of syncs of the lists may run at a time, and an answer goes into the registry when
it comes, whatever has been asked for since.  So under each name the list stands that came
last.  Of two requests the later one wins if its answer is also the later one, which is sure
only if it was sent when the earlier request had been answered; an answer that is overtaken by
a later request's puts the older list back.

A request is a move after which a task waits for lists, and it is answered by the next move of
that task that brings some.  `exists_request` shows that nothing comes unasked in this sense.
-/
import ProposerBook.Proofs.Relay.Lists

namespace ProposerBook

/-- The names that a task asks for, if it has just made a request for lists. -/
def Progress.asked? : Progress → Option (List String)
  | .goesOn (.askingLists names ..) => some names
  | _ => none

namespace Relay

/-! ### Requests -/

/-- The names of the lists that are asked for with an event. -/
def asks? (r : Relay) : Event → Option (List String)
  | .move id => (r.ready? id).bind fun x => (r.move x.2.1).2.asked?
  | _ => none

theorem asks_move (r : Relay) (id : Nat) :
    r.asks? (.move id) = (r.ready? id).bind fun x => (r.move x.2.1).2.asked? := rfl

/-- While `es` happen to `r`, the task named `id` asks for `names` with the event at `sent`, and for
nothing else before the event at `k`. -/
structure Asking (r : Relay) (es : List Event) (id : Nat) (names : List String)
    (sent k : Nat) : Prop where
  moves : es[sent]? = some (.move id)
  asks : (r.stage es sent).asks? (.move id) = some names
  earlier : sent < k
  latest : ∀ j, sent < j → j < k → es[j]? = some (.move id) →
    (r.stage es j).asks? (.move id) = none

/-- Such a request is answered with `lists`, which come with the event at `got`. -/
structure Answered (r : Relay) (es : List Event) (id : Nat) (names : List String)
    (sent got : Nat) (lists : NamedLists) : Prop where
  request : r.Asking es id names sent got
  moves : es[got]? = some (.move id)
  brings : (r.stage es got).incoming? (.move id) = some lists

theorem Asking.succ {r : Relay} {es : List Event} {id : Nat} {names : List String} {sent k : Nat}
    (h : r.Asking es id names sent k)
    (quiet : es[k]? = some (.move id) → (r.stage es k).asks? (.move id) = none) :
    r.Asking es id names sent (k + 1) := by
  refine ⟨h.moves, h.asks, Nat.lt_succ_of_lt h.earlier, ?_⟩
  intro j hsent hj hmove
  rcases Nat.lt_succ_iff_lt_or_eq.mp hj with hj | rfl
  · exact h.latest j hsent hj hmove
  · exact quiet hmove

/-- Who waits for lists after an event did so before it, or has just asked for them. -/
theorem Sound.occur_asking {r : Relay} (h : Sound r) {e : Event} {u : Task} {names : List String}
    {due left : Nat} {reply : Reply NamedLists} (hu : u ∈ (r.occur e).tasks)
    (asks : u.phase = .askingLists names due left reply) :
    (u ∈ r.tasks ∧ (e = .move u.id → r.asks? e = none)) ∨
      (e = .move u.id ∧ r.asks? e = some names) := by
  rcases h.mem_occur hu with ⟨hu, hstill⟩ | ⟨c, -, hbegun⟩ | ⟨before, t, after, rfl, hready, hu⟩
  · refine Or.inl ⟨hu, ?_⟩
    rintro rfl
    rw [asks_move, hstill rfl]
    rfl
  · rw [hbegun.waits] at asks
    cases asks
  · refine Or.inr ⟨congrArg Event.move (mem_remains hu).2.1.symm, ?_⟩
    rw [asks_move, hready, Option.bind_some]
    cases hp : (r.move t).2 with
    | goesOn phase =>
      rw [hp] at hu
      rw [List.mem_singleton.mp hu] at asks
      simp only at asks
      rw [asks]
      rfl
    | ends o =>
      rw [hp] at hu
      cases hu

/-- **Who waits for lists has asked for them.** -/
theorem asking_of_waiting {r : Relay} {es : List Event} {k : Nat} {t : Task}
    {names : List String} {due left : Nat} {reply : Reply NamedLists}
    (ht : t ∈ ((opened r).stage es k).tasks)
    (asks : t.phase = .askingLists names due left reply) :
    ∃ sent, (opened r).Asking es t.id names sent k := by
  induction k with
  | zero =>
    rw [stage_zero] at ht
    rw [List.mem_singleton.mp ht] at asks
    cases asks
  | succ k ih =>
    cases he : es[k]? with
    | none =>
      rw [stage_succ_of_none he] at ht
      obtain ⟨sent, hsent⟩ := ih ht
      refine ⟨sent, hsent.succ ?_⟩
      intro hmove
      rw [he] at hmove
      cases hmove
    | some e =>
      rw [stage_succ he] at ht
      rcases (Reachable.stage r es k).sound.occur_asking ht asks with ⟨hu, hstill⟩ | ⟨rfl, hnow⟩
      · obtain ⟨sent, hsent⟩ := ih hu
        refine ⟨sent, hsent.succ ?_⟩
        intro hmove
        rw [he, Option.some.injEq] at hmove
        rw [← hmove]
        exact hstill hmove
      · refine ⟨k, he, hnow, Nat.lt_succ_self k, ?_⟩
        intro j hk hj
        omega

/-- **Whatever lists a task brings answer a request of this task.** -/
theorem exists_request {r : Relay} {es : List Event} {id got : Nat} {lists : NamedLists}
    (moves : es[got]? = some (.move id))
    (brings : ((opened r).stage es got).incoming? (.move id) = some lists) :
    ∃ names sent, (opened r).Answered es id names sent got lists := by
  have hbrings := brings
  obtain ⟨⟨before, t, after⟩, hready, hmerges⟩ := Option.bind_eq_some_iff.mp hbrings
  obtain ⟨-, rfl, -⟩ := ready?_eq_some hready
  cases hphase : t.phase with
  | askingLists names due left reply =>
    obtain ⟨sent, hsent⟩ := asking_of_waiting (mem_of_ready hready) hphase
    exact ⟨names, sent, hsent, moves, brings⟩
  | _ =>
    unfold merges? at hmerges
    rw [hphase] at hmerges
    cases hmerges

/-! ### What stands -/

/-- **Under each name the list stands that came in last.** -/
theorem held_of_last {r : Relay} {es : List Event} {k : Nat} {e : Event} {n : String}
    {list : AddressSet} (he : es[k]? = some e) (comes : (r.stage es k).inflow? e n = some list)
    (last : ∀ j f, k < j → es[j]? = some f → (r.stage es j).inflow? f n = none) :
    (r.run es).registry.held n = Registry.entered n list ((r.stage es k).incomingAt e n) := by
  have hnow : (r.stage es (k + 1)).registry.held n
      = Registry.entered n list ((r.stage es k).incomingAt e n) := by
    rw [stage_succ he, occur_held, comes]
  have hend := stage_induct (P := fun s => s.registry.held n
    = Registry.entered n list ((r.stage es k).incomingAt e n)) hnow ?_
    (Nat.le_max_left (k + 1) es.length)
  · rwa [stage_of_length_le (Nat.le_max_right _ _)] at hend
  · intro j f hj hf hheld
    rw [occur_held, last j f hj hf]
    exact hheld

/-- Two requests are not answered at once. -/
theorem Answered.got_ne {r : Relay} {es : List Event} {id₁ id₂ sent₁ sent₂ got₁ got₂ : Nat}
    {names₁ names₂ : List String} {lists₁ lists₂ : NamedLists}
    (first : r.Answered es id₁ names₁ sent₁ got₁ lists₁)
    (second : r.Answered es id₂ names₂ sent₂ got₂ lists₂) (order : sent₁ < sent₂) :
    got₁ ≠ got₂ := by
  rintro rfl
  have hmoves := second.moves
  rw [first.moves, Option.some.injEq, Event.move.injEq] at hmoves
  subst hmoves
  have hnone := first.request.latest sent₂ order second.request.earlier second.request.moves
  rw [second.request.asks] at hnone
  cases hnone

theorem Answered.inflow {r : Relay} {es : List Event} {id sent got : Nat} {names : List String}
    {lists : NamedLists} (h : r.Answered es id names sent got lists) (n : String) :
    (r.stage es got).inflow? (.move id) n = lists.get? n := by
  unfold inflow?
  rw [h.brings]
  rfl

/-! ### The main result -/

/--
**Of two answered requests the one stands that was answered last.**  Let both answers have a list
under `n`, and let nothing come in under `n` after both.  Then the registry has under `n` the
list of the answer that came last, as one that came in with it.  This is the one of the request that
was sent later if the other had been answered by then, and in general just if its answer is the
later one too, unless the two lists are the same.
-/
theorem last_answer_stands {r : Relay} {es : List Event}
    {id₁ id₂ sent₁ sent₂ got₁ got₂ : Nat} {names₁ names₂ : List String}
    {lists₁ lists₂ : NamedLists} {n : String} {list₁ list₂ : AddressSet}
    (first : (opened r).Answered es id₁ names₁ sent₁ got₁ lists₁)
    (second : (opened r).Answered es id₂ names₂ sent₂ got₂ lists₂) (order : sent₁ < sent₂)
    (has₁ : lists₁.get? n = some list₁) (has₂ : lists₂.get? n = some list₂)
    (quiet : ∀ k e, max got₁ got₂ < k → es[k]? = some e →
      ((opened r).stage es k).inflow? e n = none) :
    let held := ((opened r).run es).registry.held n
    held = Registry.entered n (if got₁ < got₂ then list₂ else list₁)
        (((opened r).stage es (max got₁ got₂)).arrivals n) ∧
      (got₁ < sent₂ → held = Registry.entered n list₂ (((opened r).stage es got₂).arrivals n)) ∧
      ((∃ updated, held = Registry.entered n list₂ updated) ↔ got₁ < got₂ ∨ list₁ = list₂) := by
  intro held
  have hne := first.got_ne second order
  have hlater := second.request.earlier
  have hheld : held = Registry.entered n (if got₁ < got₂ then list₂ else list₁)
      (((opened r).stage es (max got₁ got₂)).arrivals n) := by
    by_cases hgot : got₁ < got₂
    · rw [if_pos hgot, Nat.max_eq_right (Nat.le_of_lt hgot)]
      refine held_of_last second.moves ?_ fun j f hj => quiet j f ?_
      · rw [second.inflow, has₂]
      · omega
    · rw [if_neg hgot, Nat.max_eq_left (Nat.le_of_not_lt hgot)]
      refine held_of_last first.moves ?_ fun j f hj => quiet j f ?_
      · rw [first.inflow, has₁]
      · omega
  refine ⟨hheld, ?_, ?_⟩
  · intro hsent
    have hgot := Nat.lt_trans hsent hlater
    rw [hheld, if_pos hgot, Nat.max_eq_right (Nat.le_of_lt hgot)]
  · rw [hheld]
    by_cases hgot : got₁ < got₂
    · rw [if_pos hgot]
      exact ⟨fun _ => Or.inl hgot, fun _ => ⟨_, rfl⟩⟩
    · rw [if_neg hgot]
      constructor
      · rintro ⟨updated, h⟩
        exact Or.inr (Option.some.inj (congrArg Prod.fst h))
      · rintro (h | rfl)
        · exact absurd h hgot
        · exact ⟨_, rfl⟩

/-- A list with an address on it. -/
def olderList : AddressSet := .ofList [.repeated 1]

/-- The second answer takes a hundred milliseconds, and the third one, where nobody is on the list
any more, ten. -/
def slowing : Relay :=
  serving [⟨0, .standing⟩,
    ⟨100, .answer (.ok (Table.ofList [("custom", olderList)]))⟩,
    ⟨10, .answer (.ok (Table.ofList [("custom", {})]))⟩]

/-- Two lookups start one sync each, and the second one's lists come first. -/
def overtaken : List Event :=
  [.move 0, .move 0, .move 0, .call (.lookup 32), .move 1, .move 1, .call (.lookup 64), .move 2,
    .move 2, .pass 10, .move 2, .pass 90, .move 1]

theorem overtaken_older : (opened slowing).Answered overtaken 1 ["custom"] 5 12
    (Table.ofList [("custom", olderList)]) := by
  refine ⟨⟨rfl, rfl, by decide, ?_⟩, rfl, rfl⟩
  intro j hsent hj hmove
  have hbetween : j = 6 ∨ j = 7 ∨ j = 8 ∨ j = 9 ∨ j = 10 ∨ j = 11 := by omega
  rcases hbetween with rfl | rfl | rfl | rfl | rfl | rfl <;> cases hmove

theorem overtaken_newer : (opened slowing).Answered overtaken 2 ["custom"] 8 10
    (Table.ofList [("custom", {})]) := by
  refine ⟨⟨rfl, rfl, by decide, ?_⟩, rfl, rfl⟩
  intro j hsent hj hmove
  have hbetween : j = 9 := by omega
  subst hbetween
  cases hmove

/-- Nothing else comes in under the name. -/
theorem overtaken_quiet {k : Nat} {e : Event} (older : k ≠ 12) (newer : k ≠ 10)
    (he : overtaken[k]? = some e) :
    ((opened slowing).stage overtaken k).inflow? e "custom" = none := by
  obtain ⟨hk, -⟩ := List.getElem?_eq_some_iff.mp he
  have hlength : overtaken.length = 13 := rfl
  have hcases : k = 0 ∨ k = 1 ∨ k = 2 ∨ k = 3 ∨ k = 4 ∨ k = 5 ∨ k = 6 ∨ k = 7 ∨ k = 8 ∨ k = 9 ∨
      k = 11 := by omega
  rcases hcases with rfl | rfl | rfl | rfl | rfl | rfl | rfl | rfl | rfl | rfl | rfl <;>
    (cases he; rfl)

/-- The older list is put back, a hundred milliseconds after the start. -/
theorem last_answer_stands_overtaken :
    (opened slowing).Answered overtaken 1 ["custom"] 5 12
      (Table.ofList [("custom", olderList)]) ∧
    (opened slowing).Answered overtaken 2 ["custom"] 8 10 (Table.ofList [("custom", {})]) ∧
    ((opened slowing).run overtaken).registry.held "custom"
      = Registry.entered "custom" olderList ⟨100000000⟩ := by
  have hold : (Table.ofList [("custom", olderList)]).get? "custom" = some olderList := by decide
  have hnew : (Table.ofList [("custom", ({} : AddressSet))]).get? "custom" = some {} := by decide
  have hstands := last_answer_stands overtaken_older overtaken_newer (by decide) hold hnew
    fun k e hk => overtaken_quiet (by omega) (by omega)
  exact ⟨overtaken_older, overtaken_newer, hstands.1⟩

/-- What was asked for later need not stand. -/
theorem overtaken_request_lost : ¬∀ (r : Relay) (es : List Event)
    (id₁ id₂ sent₁ sent₂ got₁ got₂ : Nat) (names₁ names₂ : List String)
    (lists₁ lists₂ : NamedLists) (n : String) (list₁ list₂ : AddressSet),
    (opened r).Answered es id₁ names₁ sent₁ got₁ lists₁ →
    (opened r).Answered es id₂ names₂ sent₂ got₂ lists₂ → sent₁ < sent₂ →
    lists₁.get? n = some list₁ → lists₂.get? n = some list₂ →
    (∀ k e, k ≠ got₁ → k ≠ got₂ → es[k]? = some e →
      ((opened r).stage es k).inflow? e n = none) →
    ((opened r).run es).registry.lists.get? n = some list₂ := by
  intro hall
  have hlater := hall slowing overtaken 1 2 5 8 12 10 _ _ _ _ "custom" olderList {}
    overtaken_older overtaken_newer (by decide) (by decide) (by decide)
    fun k e older newer => overtaken_quiet older newer
  have hcomes : ((opened slowing).stage overtaken 12).inflow? (.move 1) "custom"
      = some olderList := by
    rw [overtaken_older.inflow]
    decide
  have hheld := held_of_last overtaken_older.moves hcomes
    fun j f hj => overtaken_quiet (by omega) (by omega)
  rw [Registry.lists_of_held hheld] at hlater
  exact absurd hlater (by decide)

end Relay

end ProposerBook
