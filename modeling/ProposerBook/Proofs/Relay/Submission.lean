/-
A block goes out once, and nothing else takes notice.

Before anything goes out a block is asked for its version, and if that will do for one of its forms;
the answers settle what is handed in.  It is handed in once: nothing but a submission adds to what
was handed in, and a submission adds one block at most, whatever is answered.

The other half is that nothing reads what has to do with blocks.  Tasks ask by other ways, so a move
does the same whatever was handed in and whatever will be answered to it.  From one move this goes
up to the scheduler, and with the log left aside, which nobody reads either, to every event.  So
whatever goes on in the background goes on as it would without the block.
-/
import ProposerBook.Proofs.Relay.Unseen

namespace ProposerBook

/-! ### What a block is asked -/

inductive Question
  | version
  | json
  | ssz
  deriving DecidableEq, Repr

/-- A block that keeps a record of what it is asked. -/
def Block.recorded (b : Block) : Payload (StateM (List Question)) where
  version := modifyGet fun asked => (b.version, asked ++ [.version])
  json := modifyGet fun asked => (b.json, asked ++ [.json])
  ssz := modifyGet fun asked => (b.ssz, asked ++ [.ssz])

/-- The forks of which relays take blocks. -/
def DataVersion.known : List DataVersion := [.bellatrix, .capella, .deneb]

theorem DataVersion.isSubmittable_iff (v : DataVersion) : v.isSubmittable = true ↔ v ∈ known := by
  cases v <;> decide

namespace Relay

/-- What a block is asked, one question after the other, until it is settled what goes out. -/
def asks (r : Relay) (b : Block) : List Question := ((r.prepare b.recorded).run []).2

/-- What a block is asked, and then what goes out of it or why nothing does. -/
inductive Prepared (r : Relay) (b : Block) : List Question → Except RelayError Submission → Prop
  | unknown (version : b.version ∉ DataVersion.known) :
    Prepared r b [.version] (.error (.unknownVersion b.version.name))
  | failsSsz {e : RelayError} (version : b.version ∈ DataVersion.known)
      (binary : r.settings.ssz = true) (fails : b.ssz = .error e) :
    Prepared r b [.version, .ssz] (.error e)
  | failsJson {e : RelayError} (version : b.version ∈ DataVersion.known)
      (text : r.settings.ssz = false) (fails : b.json = .error e) :
    Prepared r b [.version, .json] (.error e)
  | ssz {bytes : Bytes} (version : b.version ∈ DataVersion.known)
      (binary : r.settings.ssz = true) (encoded : b.ssz = .ok bytes) :
    Prepared r b [.version, .ssz] (.ok ⟨.ssz bytes, r.cancellations⟩)
  | json {value : Json.Value} (version : b.version ∈ DataVersion.known)
      (text : r.settings.ssz = false) (encoded : b.json = .ok value) :
    Prepared r b [.version, .json] (.ok ⟨.json value, r.cancellations⟩)

theorem prepare_recorded (r : Relay) (b : Block) : (r.prepare b.recorded).run [] =
    if b.version.isSubmittable then
      if r.settings.ssz then
        ((b.ssz.map .ssz).map (⟨·, r.cancellations⟩), [.version, .ssz])
      else ((b.json.map .json).map (⟨·, r.cancellations⟩), [.version, .json])
    else (.error (.unknownVersion b.version.name), [.version]) := by
  unfold prepare Payload.body
  show ((if b.version.isSubmittable then _ else _ : StateM (List Question) _)).run [.version] = _
  split
  · cases r.settings.ssz with
    | true => rfl
    | false => rfl
  · rfl

/-- A record that is kept changes nothing. -/
theorem prepare_recorded_fst (r : Relay) (b : Block) :
    ((r.prepare b.recorded).run []).1 = r.submission b := by
  rw [prepare_recorded]
  unfold submission prepare Payload.body
  show _ = Id.run (if b.version.isSubmittable then _ else _)
  split
  · cases r.settings.ssz with
    | true => rfl
    | false => rfl
  · rfl

/-- A block is asked for its version, and then at most for the form in which it goes out. -/
theorem prepared_submission (r : Relay) (b : Block) :
    Prepared r b (r.asks b) (r.submission b) := by
  rw [← prepare_recorded_fst, asks, prepare_recorded]
  split
  · rename_i hversion
    have hknown := (DataVersion.isSubmittable_iff _).mp hversion
    cases hform : r.settings.ssz with
    | true =>
      cases hssz : b.ssz with
      | error e => exact .failsSsz hknown hform hssz
      | ok bytes => exact .ssz hknown hform hssz
    | false =>
      cases hjson : b.json with
      | error e => exact .failsJson hknown hform hjson
      | ok value => exact .json hknown hform hjson
  · rename_i hversion
    exact .unknown fun hknown => hversion ((DataVersion.isSubmittable_iff _).mpr hknown)

/-! ### What has to do with blocks -/

/-- The book with other answers to blocks to come, and other blocks handed in. -/
def withBlocks (r : Relay) (plan : List (Planned Unit)) (sent : List Submission) : Relay :=
  { r with remote := { r.remote with submissionPlan := plan, submissions := sent } }

theorem withBlocks_self (r : Relay) :
    r.withBlocks r.remote.submissionPlan r.remote.submissions = r := rfl

/-- The book but for its log and for what has to do with blocks. -/
def aside (r : Relay) : Relay := r.hush.withBlocks [] []

theorem exists_blocks {r s : Relay} (h : r.aside = s.aside) :
    ∃ plan sent log, r = { s.withBlocks plan sent with log } :=
  ⟨r.remote.submissionPlan, r.remote.submissions, r.log,
    congrArg (fun x : Relay => { x.withBlocks r.remote.submissionPlan r.remote.submissions with
      log := r.log }) h⟩

theorem aside_of_hush {r s : Relay} (h : r.hush = s.hush) : r.aside = s.aside :=
  congrArg (fun x : Relay => x.withBlocks [] []) h

/-! ### A move has nothing to do with blocks -/

section Moves

variable (plan : List (Planned Unit)) (sent : List Submission) (r : Relay) (t : Task)

/-- What comes of a move, with other blocks. -/
def reblock (x : Relay × Progress) : Relay × Progress := (x.1.withBlocks plan sent, x.2)

theorem reblock_endLists (o : Outcome) :
    reblock plan sent (r.endLists t o) = (r.withBlocks plan sent).endLists t o := by
  unfold endLists
  split
  · rfl
  · rfl
  · rfl

theorem reblock_beginLists :
    reblock plan sent (r.beginLists t) = (r.withBlocks plan sent).beginLists t := by
  have hcache : (r.withBlocks plan sent).cache = r.cache := rfl
  unfold beginLists
  rw [hcache]
  split
  · exact reblock_endLists plan sent _ t _
  · rfl

theorem reblock_takeLists (names : List String) (left : Nat) (x : Except RelayError NamedLists) :
    reblock plan sent (r.takeLists t names left x) =
      (r.withBlocks plan sent).takeLists t names left x := by
  unfold takeLists
  split
  · exact reblock_endLists plan sent _ t _
  · exact reblock_endLists plan sent _ t _
  · rfl

theorem reblock_beginListsIfWanted (o : Outcome) :
    reblock plan sent (r.beginListsIfWanted t o) =
      (r.withBlocks plan sent).beginListsIfWanted t o := by
  have hsettings : (r.withBlocks plan sent).settings = r.settings := rfl
  unfold beginListsIfWanted
  rw [hsettings]
  split
  · exact reblock_beginLists plan sent r t
  · rfl

theorem reblock_endValidators (o : Outcome) :
    reblock plan sent (r.endValidators t o) = (r.withBlocks plan sent).endValidators t o := by
  unfold endValidators
  split
  · exact reblock_beginListsIfWanted plan sent _ t _
  · rfl
  · exact reblock_beginListsIfWanted plan sent _ t _
  · exact reblock_beginListsIfWanted plan sent r t _
  · exact reblock_beginListsIfWanted plan sent r t _
  · rfl

theorem reblock_beginValidators :
    reblock plan sent (r.beginValidators t) = (r.withBlocks plan sent).beginValidators t := by
  have hflag : (r.withBlocks plan sent).syncing = r.syncing := rfl
  unfold beginValidators
  rw [hflag]
  split
  · exact reblock_endValidators plan sent r t _
  · rfl

theorem withBlocks_noteMalformed (rs : List Registration) :
    (r.noteMalformed rs).withBlocks plan sent = (r.withBlocks plan sent).noteMalformed rs := by
  unfold noteMalformed
  induction SlotMap.malformed rs generalizing r with
  | nil => rfl
  | cons x xs ih => exact ih _

theorem reblock_takeValidators (left : Nat) (x : Except RelayError (List Registration)) :
    reblock plan sent (r.takeValidators t left x) =
      (r.withBlocks plan sent).takeValidators t left x := by
  unfold takeValidators
  split
  · rw [← withBlocks_noteMalformed]
    exact reblock_endValidators plan sent _ t _
  · exact reblock_endValidators plan sent _ t _
  · rfl

/-- **A move does the same whatever was handed in and will be answered to it.** -/
theorem reblock_move : reblock plan sent (r.move t) = (r.withBlocks plan sent).move t := by
  unfold move
  split
  · split
    · exact reblock_beginLists plan sent r t
    · exact reblock_beginValidators plan sent r t
  · exact reblock_takeValidators plan sent r t _ _
  · rfl
  · exact reblock_takeLists plan sent r t _ _ _
  · rfl

/-! ### Nor has the scheduler -/

theorem moved_withBlocks (before after : List Task) :
    (r.withBlocks plan sent).moved before t after =
      (r.moved before t after).withBlocks plan sent := by
  unfold moved
  rw [← reblock_move]
  rfl

theorem turn?_withBlocks :
    (r.withBlocks plan sent).turn? = r.turn?.map (·.withBlocks plan sent) := by
  have hready : firstReady (r.withBlocks plan sent).now (r.withBlocks plan sent).tasks =
      firstReady r.now r.tasks := rfl
  rw [turn?_eq, turn?_eq, hready, Option.map_map]
  refine congrArg (fun f => (firstReady r.now r.tasks).map f) (funext fun x => ?_)
  exact moved_withBlocks plan sent r x.2.1 x.1 x.2.2

theorem tick?_withBlocks (limit : Option Nat) :
    (r.withBlocks plan sent).tick? limit = (r.tick? limit).map (·.withBlocks plan sent) := by
  have hdue : (r.withBlocks plan sent).nextDue? = r.nextDue? := rfl
  unfold tick?
  rw [turn?_withBlocks, hdue]
  cases r.turn? with
  | some s => rfl
  | none =>
    dsimp only [Option.map_none]
    split
    · rfl
    · rename_i due _
      split
      · exact turn?_withBlocks plan sent (r.waitUntil due)
      · rfl

theorem runUntil_withBlocks (limit : Nat) :
    (r.withBlocks plan sent).runUntil limit = (r.runUntil limit).withBlocks plan sent := by
  induction r using runUntil.induct limit with
  | case1 r s hs ih =>
    have htick : (r.withBlocks plan sent).tick? (some limit) = some (s.withBlocks plan sent) := by
      rw [tick?_withBlocks, hs]
      rfl
    rw [runUntil_of_tick hs, runUntil_of_tick htick, ih]
  | case2 r hs =>
    have hrest : (r.withBlocks plan sent).tick? (some limit) = none := by
      rw [tick?_withBlocks, hs]
      rfl
    rw [runUntil_of_rest hs, runUntil_of_rest hrest]

theorem advance_withBlocks (ms : Nat) :
    (r.withBlocks plan sent).advance ms = (r.advance ms).withBlocks plan sent := by
  have hnow : (r.withBlocks plan sent).now = r.now := rfl
  unfold advance
  rw [hnow, runUntil_withBlocks]
  rfl

end Moves

/-- What goes the same way with other blocks hands in none. -/
theorem submissions_eq_of_withBlocks {f : Relay → Relay}
    (h : ∀ plan sent r, f (r.withBlocks plan sent) = (f r).withBlocks plan sent) (r : Relay) :
    (f r).remote.submissions = r.remote.submissions := by
  have hself := h r.remote.submissionPlan r.remote.submissions r
  rw [withBlocks_self] at hself
  rw [hself]
  rfl

/-! ### Handing in -/

/-- What goes out of a block: one submission, or nothing. -/
def calls (r : Relay) (b : Block) : List Submission := (r.submission b).toOption.toList

theorem handIn_aside (r : Relay) (b : Block) : (r.handIn b).aside = r.aside := by
  obtain ⟨log, hlog⟩ := handIn_eq r b
  rw [hlog]
  cases r.submission b with
  | error e => rfl
  | ok s => rfl

theorem handIn_submissions (r : Relay) (b : Block) :
    (r.handIn b).remote.submissions = r.remote.submissions ++ r.calls b := by
  obtain ⟨log, hlog⟩ := handIn_eq r b
  rw [hlog]
  unfold calls
  cases r.submission b with
  | error e => exact (List.append_nil _).symm
  | ok s => rfl

/-! ### Events -/

/-- What goes out when something happens. -/
def sends (r : Relay) : Event → List Submission
  | .call (.submit b) => if r.isOpening then [] else r.calls b
  | _ => []

/-- What goes out in a run. -/
def sent (r : Relay) : List Event → List Submission
  | [] => []
  | e :: es => r.sends e ++ (r.occur e).sent es

/-- Other calls ask the other side nothing. -/
theorem serve_remote {r : Relay} {c : Call} (other : ∀ b, c ≠ .submit b) :
    (r.serve c).remote = r.remote := by
  have hserved := served_serve r c
  generalize r.serve c = s at hserved ⊢
  cases hserved with
  | answers => rfl
  | hands b => exact absurd rfl (other b)
  | begins => rfl
  | drops => rfl

theorem serve_submissions (r : Relay) (c : Call) (filled : r.isOpening = false) :
    (r.serve c).remote.submissions = r.remote.submissions ++ r.sends (.call c) := by
  by_cases hsubmit : ∃ b, c = .submit b
  · obtain ⟨b, rfl⟩ := hsubmit
    show (r.handIn b).remote.submissions = _ ++ if r.isOpening then _ else _
    rw [filled]
    exact handIn_submissions r b
  · have hother : ∀ b, c ≠ .submit b := fun b hb => hsubmit ⟨b, hb⟩
    have hnone : r.sends (.call c) = [] := by
      unfold sends
      split
      · rename_i b heq
        exact absurd (Event.call.inj heq) (hother b)
      · rfl
    rw [serve_remote hother, hnone, List.append_nil]

/-- **Only a submission hands in a block**, and it hands in one at most. -/
theorem occur_submissions (r : Relay) (e : Event) :
    (r.occur e).remote.submissions = r.remote.submissions ++ r.sends e := by
  cases e with
  | call c =>
    show (if r.isOpening then r else r.serve c).remote.submissions = _
    cases hopening : r.isOpening with
    | true =>
      have hnone : r.sends (.call c) = [] := by
        unfold sends
        rw [hopening]
        split
        · rfl
        · rfl
      rw [hnone, List.append_nil]
      rfl
    | false => exact serve_submissions r c hopening
  | move id =>
    have hmoved : (r.occur (.move id)).remote.submissions = r.remote.submissions := by
      cases hready : r.ready? id with
      | none =>
        unfold occur
        dsimp only
        rw [hready]
      | some x =>
        obtain ⟨before, t, after⟩ := x
        rw [occur_of_ready hready]
        exact submissions_eq_of_withBlocks (f := fun r => r.moved before t after)
          (fun plan sent r => moved_withBlocks plan sent r t before after) r
    rw [hmoved]
    exact (List.append_nil _).symm
  | _ => exact (List.append_nil _).symm

theorem run_submissions (r : Relay) (es : List Event) :
    (r.run es).remote.submissions = r.remote.submissions ++ r.sent es := by
  induction es generalizing r with
  | nil => exact (List.append_nil _).symm
  | cons e es ih => rw [run_cons, ih, occur_submissions, sent, List.append_assoc]

/-! ### Nothing that happens depends on blocks -/

/-- What `f` makes of a book does not depend on what has to do with blocks. -/
def Blind (f : Relay → Relay) : Prop :=
  ∀ plan sent r, (f (withBlocks r plan sent)).aside = (f r).aside

/-- What depends neither on blocks nor on the log makes the same of books that are alike. -/
theorem Blind.congr {f : Relay → Relay} (blind : Blind f) (deaf : Deaf f) {r s : Relay}
    (same : r.aside = s.aside) : (f r).aside = (f s).aside := by
  obtain ⟨plan, sent, log, rfl⟩ := exists_blocks same
  exact (aside_of_hush (deaf (s.withBlocks plan sent) log)).trans (blind plan sent s)

theorem blind_advance (ms : Nat) : Blind fun r => r.advance ms := by
  intro plan sent r
  dsimp only
  rw [advance_withBlocks]
  rfl

theorem noteOverride_aside (r : Relay) (slot : UInt64) : (r.noteOverride slot).aside = r.aside := by
  obtain ⟨log, hlog⟩ := noteOverride_eq r slot
  rw [hlog]
  rfl

theorem inspect_aside (r : Relay) (q : Inspection.Request) : (r.inspect q).2.aside = r.aside :=
  aside_of_hush (r.hush_inspect q)

theorem blind_serve (c : Call) : Blind fun r => r.serve c := by
  intro plan sent r
  cases c with
  | lookup slot =>
    unfold serve lookup
    dsimp only
    rw [noteOverride_aside, noteOverride_aside]
    show (if r.cache.isStale slot then _ else _ : Relay).aside = _
    split
    · rfl
    · rfl
  | peek slot => exact (noteOverride_aside _ slot).trans (noteOverride_aside r slot).symm
  | inspect q => exact (inspect_aside _ q).trans (inspect_aside r q).symm
  | submit b => exact (handIn_aside _ b).trans (handIn_aside r b).symm
  | _ => rfl

theorem blind_occur (e : Event) : Blind fun r => r.occur e := by
  intro plan sent r
  cases e with
  | call c =>
    show (if r.isOpening then r.withBlocks plan sent else (r.withBlocks plan sent).serve c).aside =
      (if r.isOpening then r else r.serve c).aside
    split
    · rfl
    · exact blind_serve c plan sent r
  | move id =>
    have hready : (r.withBlocks plan sent).ready? id = r.ready? id := rfl
    unfold occur
    dsimp only
    rw [hready]
    cases r.ready? id with
    | none => rfl
    | some x =>
      dsimp only
      rw [moved_withBlocks]
      rfl
  -- Among the answers that the other side settles on are those to blocks, which are left aside.
  | _ => rfl

theorem occur_aside {r s : Relay} (same : r.aside = s.aside) (e : Event) :
    (r.occur e).aside = (s.occur e).aside :=
  (blind_occur e).congr (deaf_occur e) same

/-- **Books that are alike but for blocks stay so**, whatever happens to both. -/
theorem run_aside {r s : Relay} (same : r.aside = s.aside) (es : List Event) :
    (r.run es).aside = (s.run es).aside := by
  induction es generalizing r s with
  | nil => exact same
  | cons e es ih => exact ih (occur_aside same e)

/-- The same blocks go out of both. -/
theorem sent_aside {r s : Relay} (same : r.aside = s.aside) (es : List Event) :
    r.sent es = s.sent es := by
  induction es generalizing r s with
  | nil => rfl
  | cons e es ih =>
    have hsends : r.sends e = s.sends e := by
      obtain ⟨plan, sent, log, rfl⟩ := exists_blocks same
      rfl
    rw [sent, sent, hsends, ih (occur_aside same e)]

/-! ### The main result -/

/-- Somebody hands in a block and waits for the answer. -/
theorem submit_aside (r : Relay) (b : Block) :
    (r.submit b).2.aside = (match r.submission b with
      | .error _ => r
      | .ok s => r.advance (r.remote.submit s).1.delay).aside := by
  rw [submit_eq_handIn]
  cases r.submission b with
  | error e => exact handIn_aside r b
  | ok s => exact (blind_advance _).congr (deaf_advance _) (handIn_aside r b)

theorem submit_submissions (r : Relay) (b : Block) :
    (r.submit b).2.remote.submissions = r.remote.submissions ++ r.calls b := by
  have hhanded := handIn_submissions r b
  rw [submit_eq_handIn]
  cases r.submission b with
  | error e => exact hhanded
  | ok s =>
    rw [← hhanded]
    exact submissions_eq_of_withBlocks (f := fun q => q.advance (r.remote.submit s).1.delay)
      (fun plan sent q => advance_withBlocks plan sent q _) _

/--
**A block goes out once, and nothing else takes notice.**  Whatever the state of the book, whatever
the block and whatever the other side has in store: the block is asked for its version, and only if
relays take blocks of that fork for one of its forms, which goes out with the flag that is set; who
hands it in is told why nothing goes out or what the other side answers.  In all that comes after,
it is one call that is made on account of it, or none.  But for the log and for what has to do with
blocks, the book is what it would be without the submission, at once, when the answer is there, and
whatever happens later: the slot map and the slot of the last sync, the flag, the registry, the
tasks that are under way and how they end.
-/
theorem submits_once (r : Relay) (b : Block) :
    Prepared r b (r.asks b) (r.submission b) ∧
    (r.submit b).1 = (match r.submission b with
      | .error e => .error e
      | .ok s => (r.remote.submit s).1.reply.resolve ()) ∧
    (r.submit b).2.remote.submissions = r.remote.submissions ++ r.calls b ∧
    (r.submit b).2.aside = (match r.submission b with
      | .error _ => r
      | .ok s => r.advance (r.remote.submit s).1.delay).aside ∧
    (r.isOpening = false → ∀ es,
      (r.run (.call (.submit b) :: es)).aside = (r.run es).aside ∧
      (r.run (.call (.submit b) :: es)).remote.submissions =
        r.remote.submissions ++ r.calls b ++ r.sent es ∧
      (r.run es).remote.submissions = r.remote.submissions ++ r.sent es) := by
  refine ⟨prepared_submission r b, ?_, submit_submissions r b, submit_aside r b, ?_⟩
  · rw [submit_eq_handIn]
    cases r.submission b with
    | error e => rfl
    | ok s => rfl
  · intro filled es
    have hhanded : r.occur (.call (.submit b)) = r.handIn b := by
      show (if r.isOpening then r else r.handIn b) = r.handIn b
      rw [filled]
      rfl
    rw [run_cons, hhanded]
    refine ⟨run_aside (handIn_aside r b) es, ?_, run_submissions r es⟩
    rw [run_submissions, handIn_submissions, sent_aside (handIn_aside r b)]

/-- A filled book whose lookup has started a sync, which is to be answered in 50 milliseconds. -/
def resyncing : Relay :=
  (opened { prompt with
    settings := { prompt.settings with ssz := true }
    cancellations := true }).run
    [.move 0, .move 0, .call (.lookup 32), .answers { validatorPlan := [⟨50, .standing⟩] }, .move 1,
      .answers { submissionPlan := [⟨7, .answer (.error (.status "" 500))⟩] }]

def refusedBlock : Block := ⟨.deneb, .error .notFound, .ok [1, 2]⟩

/-- A block that is refused is not sent again, and the sync goes on to its end. -/
theorem submits_once_resyncing :
    resyncing.syncing = true ∧ resyncing.asks refusedBlock = [.version, .ssz] ∧
      (resyncing.submit refusedBlock).1 = .error (.status "" 500) ∧
      (resyncing.submit refusedBlock).2.remote.submissions = [⟨.ssz [1, 2], true⟩] ∧
      let s := resyncing.run [.call (.submit refusedBlock), .pass 50, .move 1]
      s.cache.lastSynced = some 32 ∧ s.syncing = false ∧
        s.remote.submissions = [⟨.ssz [1, 2], true⟩] := by
  obtain ⟨-, htold, hsent, -, hrun⟩ := submits_once resyncing refusedBlock
  obtain ⟨haside, hlater, -⟩ := hrun rfl [.pass 50, .move 1]
  have hcache := congrArg Relay.cache haside
  have hsyncing := congrArg Relay.syncing haside
  exact ⟨rfl, rfl, htold, hsent, congrArg Cache.lastSynced hcache, hsyncing, hlater⟩

end Relay

end ProposerBook
