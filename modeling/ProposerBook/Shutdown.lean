/-
Shutting down: one request that everybody sees, and a drain that waits for everybody.

A listener waits for a signal and turns it into a request.  Jobs run for a while, some of
them only once shutdown has been requested, and a job may be done before its time.  The listener
and all jobs are tracked.  To drain is to request shutdown, in case nobody has, to close the
tracker, and then to wait until the tracker says that nobody is left, also of jobs that are
spawned during the wait.  When a tracker says so is up to the tracker, which is a parameter.  It
says so of its own accord: who waits need not ask in the right moment.

Whoever has something to do takes a turn of its own, the drain one for each of its steps, so that
between a request and the jobs that wait for it there is a state in which only the request has
been made.  `settle` gives everybody but the drain a turn.
-/

namespace ProposerBook

/-- Work for `duration` milliseconds, begun at once or when shutdown is requested. -/
structure Job where
  name : String
  duration : Nat
  awaitsRequest : Bool
  deriving DecidableEq, Repr

/-- A job that has begun. -/
structure RunningJob where
  name : String
  ends : Nat
  deriving DecidableEq, Repr

/-- How far a drain has come. -/
inductive Drain
  | unbegun
  /-- It has made the request. -/
  | requested
  /-- It has closed the tracker as well. -/
  | waiting
  /-- It has been told that nobody is left. -/
  | resolved
  deriving DecidableEq, Repr

/-- Whether those who wait for a tracker are told that it is over, by whether it is closed and by
how many are in it. -/
abbrev Tracker := Bool → Nat → Bool

/-- A tracker that tells them as soon as it is closed and nobody is in it, and not before. -/
def Tracker.exact : Tracker := fun closed n => closed && n == 0

structure Shutdown where
  now : Nat := 0
  requested : Bool := false
  /-- Whether the tracker is closed.  It takes on jobs all the same. -/
  closed : Bool := false
  drain : Drain := .unbegun
  listening : Bool := true
  /-- Whether a signal has come that the listener has not heard yet. -/
  signalled : Bool := false
  /-- The jobs that have not begun, the one spawned first at the front. -/
  waiting : List Job := []
  /-- The jobs that have begun, the one that began first at the front. -/
  running : List RunningJob := []
  /-- The names of the jobs that have ended, in that order. -/
  ended : List String := []
  deriving DecidableEq, Repr

namespace Shutdown

/-! ### What is done from outside -/

def spawn (s : Shutdown) (j : Job) : Shutdown := { s with waiting := s.waiting ++ [j] }

def request (s : Shutdown) : Shutdown := { s with requested := true }

def signal (s : Shutdown) : Shutdown := { s with signalled := true }

/-- Closes the tracker, as somebody else's drain does. -/
def close (s : Shutdown) : Shutdown := { s with closed := true }

/-- Lets time pass. -/
def pass (s : Shutdown) (ms : Nat) : Shutdown := { s with now := s.now + ms }

/-! ### Turns -/

/-- The listener ends once there is a request, which it makes itself where a signal came. -/
def listen (s : Shutdown) : Shutdown :=
  if s.listening && (s.signalled || s.requested) then
    { s with listening := false, requested := true }
  else s

/-- Whether a job that has not begun may begin. -/
def mayBegin (s : Shutdown) (j : Job) : Bool := !j.awaitsRequest || s.requested

/-- Lets the jobs begin that may. -/
def start (s : Shutdown) : Shutdown :=
  { s with
    waiting := s.waiting.filter (!s.mayBegin ·)
    running := s.running ++
      (s.waiting.filter s.mayBegin).map fun j => ⟨j.name, s.now + j.duration⟩ }

/-- Ends the jobs whose time is over: the one that was to end first comes first, and of two of the
same moment the one that began first. -/
def finish (s : Shutdown) : Shutdown :=
  let due := (s.running.filter (·.ends ≤ s.now)).mergeSort (·.ends ≤ ·.ends)
  { s with
    running := s.running.filter (s.now < ·.ends)
    ended := s.ended ++ due.map (·.name) }

/-- Ends the job at place `k` of those that have begun, whatever time it has left. -/
def leave (s : Shutdown) (k : Nat) : Shutdown :=
  { s with
    running := s.running.eraseIdx k
    ended := s.ended ++ (s.running[k]?.map (·.name)).toList }

/-! ### The drain -/

/-- Lets the drain take its next step.  From the second one on it waits. -/
def proceed (s : Shutdown) : Shutdown :=
  match s.drain with
  | .unbegun => { s.request with drain := .requested }
  | .requested => { s.close with drain := .waiting }
  | .waiting | .resolved => s

/-- How many are in the tracker: the listener and the jobs that have not ended. -/
def tracked (s : Shutdown) : Nat := s.listening.toNat + s.waiting.length + s.running.length

/-- Tells a drain that waits that it is over, where the tracker says so.  What it has been told once
stays so, even if others are spawned before it takes any notice. -/
def tell (w : Tracker) (s : Shutdown) : Shutdown :=
  if s.drain = .waiting ∧ w s.closed s.tracked = true then { s with drain := .resolved } else s

/-- Whether the drain is over. -/
def drained (s : Shutdown) : Bool := s.drain == .resolved

/-! ### Events -/

/-- What may happen next: something from outside, or the turn of somebody. -/
inductive Event
  | spawn (j : Job)
  | request
  | close
  | signal
  | pass (ms : Nat)
  | listen
  | start
  | finish
  | leave (k : Nat)
  | proceed
  deriving DecidableEq, Repr

/-- What an event makes of a state before the tracker has told anybody about it. -/
def occur (s : Shutdown) : Event → Shutdown
  | .spawn j => s.spawn j
  | .request => s.request
  | .close => s.close
  | .signal => s.signal
  | .pass ms => s.pass ms
  | .listen => s.listen
  | .start => s.start
  | .finish => s.finish
  | .leave k => s.leave k
  | .proceed => s.proceed

/-- What an event makes of a state. -/
def after (w : Tracker) (s : Shutdown) (e : Event) : Shutdown := (s.occur e).tell w

/-- What events make of a state, in whichever order they come. -/
def run (w : Tracker) (s : Shutdown) (es : List Event) : Shutdown := es.foldl (after w) s

/-! ### By the clock -/

/-- Gives everybody but the drain a turn. -/
def settle (w : Tracker) (s : Shutdown) : Shutdown := s.run w [.listen, .start, .finish]

/-- When the last of the jobs that have begun ends. -/
def lastEnd (s : Shutdown) : Nat := s.running.foldl (fun t j => max t j.ends) s.now

/-- Lets the drain ask and close the tracker, and everybody else take a turn. -/
def beginDrain (w : Tracker) (s : Shutdown) : Shutdown := (s.run w [.proceed, .proceed]).settle w

/-- Drains, from the request on.  Nobody waits for anything but the request and the time, so unless
the drain is over at once, it is enough to let as much time pass as the longest of the jobs
takes. -/
def drainOut (w : Tracker) (s : Shutdown) : Shutdown :=
  let s := s.beginDrain w
  if s.drained then s else (s.after w (.pass (s.lastEnd - s.now))).settle w

end Shutdown

end ProposerBook
