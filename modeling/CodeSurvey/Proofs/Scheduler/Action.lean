import CodeSurvey.Scheduler.Batch
import CodeSurvey.Scheduler.Control
import CodeSurvey.Scheduler.Shutdown

/-!
# What can happen to a scheduler

Everything that happens to a scheduler is a sequence of atomic actions, each at an
instant of its own.  A submission, a cancellation or the end of an attempt is one
action, storing the value of an attempt and starting tasks are others, so that any other
action may come between them.
A batch and a shutdown are sequences of these actions, and others may come in between.
The clock may show anything.
-/

namespace CodeSurvey
namespace Scheduler

inductive Action (p i o : Type) where
  | submit (input : i) (priority : Int)
  | cancel (id : TaskId)
  | cancelAll
  | pause
  | resume
  | configure (options : Options)
  | setProcessor (processor : p)
  | clearFinished
  | clearCache
  | beginShutdown
  /-- The grace of a shutdown has elapsed. -/
  | closeRetries
  /-- Start as many tasks as may be started. -/
  | dispatch
  /-- The attempt in the given place among those in flight has ended. -/
  | finish (place : Nat) (found : Except Setback o) (elapsed : Time.Span)
  /-- The value in the given place among those on their way is put into the cache. -/
  | store (place : Nat)
  /-- The observers are told of the events so far. -/
  | deliver

/-- An action, with what the clock shows. -/
structure Moment (p i o : Type) where
  now : Int
  action : Action p i o

namespace State

/-- The observers have been told of all events. -/
def deliver (s : State p i o) : State p i o :=
  { s with events := [] }

def act (c : Coding i o) (s : State p i o) (m : Moment p i o) : State p i o :=
  match m.action with
  | .submit input priority => (s.submit c m.now input priority).state
  | .cancel id => (s.cancel m.now id).state
  | .cancelAll => (s.cancelAll m.now).state
  | .pause => s.pause.state
  | .resume => s.resume.state
  | .configure options => (s.configure options).state
  | .setProcessor processor => (s.setProcessor processor).state
  | .clearFinished => s.clearFinished.state
  | .clearCache => s.clearCache.state
  | .beginShutdown => s.beginShutdown.state
  | .closeRetries => s.closeRetries.state
  | .dispatch => (s.dispatch m.now).1
  | .finish place found elapsed =>
      match s.inFlight[place]? with
      | some attempt => (s.finish m.now attempt.id (attempt.outcome found) elapsed).state
      | none => s
  | .store place => (s.store c m.now place).state
  | .deliver => s.deliver

def run (c : Coding i o) (s : State p i o) (ms : List (Moment p i o)) : State p i o :=
  ms.foldl (act c) s

theorem run_append (c : Coding i o) (s : State p i o) (ms rest : List (Moment p i o)) :
    s.run c (ms ++ rest) = (s.run c ms).run c rest :=
  List.foldl_append

theorem run_concat (c : Coding i o) (s : State p i o) (ms : List (Moment p i o))
    (m : Moment p i o) : s.run c (ms ++ [m]) = (s.run c ms).act c m :=
  run_append c s ms [m]

theorem run_append_cons (c : Coding i o) (s : State p i o) (before : List (Moment p i o))
    (m : Moment p i o) (after : List (Moment p i o)) :
    s.run c (before ++ m :: after) = ((s.run c before).act c m).run c after :=
  run_append c s before (m :: after)

/-- What every action keeps, every run keeps. -/
theorem run_induction {c : Coding i o} {motive : State p i o -> Prop}
    (hact : forall s m, motive s -> motive (s.act c m)) {s : State p i o} (hs : motive s)
    (ms : List (Moment p i o)) : motive (s.run c ms) := by
  induction ms generalizing s with
  | nil => exact hs
  | cons m ms ih => exact ih (hact s m hs)

end State
end Scheduler
end CodeSurvey
