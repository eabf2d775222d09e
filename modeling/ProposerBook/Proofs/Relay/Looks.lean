/-
What a look at a book leaves behind.

Everything that answers over HTTP has the whole book and might make anything of it.  What each of
them does make of it is told here handler by handler, from the peek on which one of them rests up
to the request as a whole: an entry of the log or two, and nothing else.  `hush` is the book but
for its log.

A peek and a lookup give the same answer, so the answer does not tell which of the two a handler
takes.  The book does: where a lookup starts a sync, it leaves another book behind.
-/
import ProposerBook.Relay.Inspection

namespace ProposerBook

namespace Relay

/-- The book but for its log. -/
def hush (r : Relay) : Relay := { r with log := [] }

theorem eq_of_hush {r s : Relay} (h : r.hush = s.hush) : r = { s with log := r.log } :=
  congrArg (fun x : Relay => { x with log := r.log }) h

theorem exists_log {r s : Relay} (h : r.hush = s.hush) : ∃ log, r = { s with log } :=
  ⟨r.log, eq_of_hush h⟩

/-! ### Peeks and lookups -/

theorem noteOverride_eq (r : Relay) (slot : UInt64) :
    ∃ log, r.noteOverride slot = { r with log } := by
  unfold noteOverride
  split
  · exact ⟨r.log, rfl⟩
  · exact ⟨_, rfl⟩

theorem hush_peek (r : Relay) (slot : UInt64) : (r.peek slot).2.hush = r.hush := by
  obtain ⟨log, hlog⟩ := noteOverride_eq r slot
  show (r.noteOverride slot).hush = r.hush
  rw [hlog]
  rfl

/-- **A lookup leaves the book alone only where it is up to date**: otherwise there is one task
more. -/
theorem hush_lookup_iff (r : Relay) (slot : UInt64) :
    (r.lookup slot).2.hush = r.hush ↔ r.cache.isStale slot = false := by
  obtain ⟨log, hlog⟩ := noteOverride_eq
    (if r.cache.isStale slot then (r.spawn .lookup slot lookupRetries).2 else r) slot
  have hlookup : (r.lookup slot).2 =
      { (if r.cache.isStale slot then (r.spawn .lookup slot lookupRetries).2 else r) with log } :=
    hlog
  rw [hlookup]
  cases hstale : r.cache.isStale slot with
  | false => exact iff_of_true rfl rfl
  | true =>
    refine iff_of_false (fun hsame => ?_) nofun
    have hnext : r.nextId + 1 = r.nextId := congrArg Relay.nextId hsame
    omega

end Relay

namespace Inspection

variable (r : Relay)

/-! ### The handlers -/

/-- Which slot is asked for is of no account, however far ahead it is, nor whether it is one. -/
theorem hush_showValidator (segment : List Char) :
    (showValidator r segment).2.hush = r.hush := by
  unfold showValidator
  split
  · rfl
  · split
    · rfl
    · rename_i slot _
      exact r.hush_peek slot

theorem hush_screen (q : Screening) : (screen r q).2.hush = r.hush := by
  unfold screen
  dsimp only
  split
  · rfl
  · rfl

theorem hush_answerCheck (q : Request) : (answerCheck r q).2.hush = r.hush := by
  unfold answerCheck
  split
  · split
    · rfl
    · split
      · rfl
      · rfl
      · exact hush_screen r _
  · rfl

theorem hush_answerRoute (q : Request) (route : Route) :
    (answerRoute r q route).2.hush = r.hush := by
  cases route with
  | health => rfl
  | version => rfl
  | validator segment => exact hush_showValidator r segment
  | lists => rfl
  | check => exact hush_answerCheck r q

theorem hush_answer (q : Request) : (answer r q).2.hush = r.hush := by
  unfold answer
  split
  · rfl
  · rename_i route _
    split
    · exact hush_answerRoute r q route
    · rfl

end Inspection

namespace Relay

/-- **A request over HTTP leaves nothing behind but entries of the log**, whatever it asks for. -/
theorem hush_inspect (r : Relay) (q : Inspection.Request) : (r.inspect q).2.hush = r.hush :=
  Inspection.hush_answer r q

theorem inspect_eq (r : Relay) (q : Inspection.Request) :
    ∃ log, (r.inspect q).2 = { r with log } := exists_log (r.hush_inspect q)

end Relay

end ProposerBook
