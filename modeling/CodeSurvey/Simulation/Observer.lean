import CodeSurvey.Scheduler.Registry
import CodeSurvey.Simulation.Script

/-!
# Observers that react

An observer notes every event.  It may also have reactions: to certain events it calls
the scheduler, and notes what came of the call.
-/

namespace CodeSurvey
namespace Simulation

open Scheduler (Event TaskId)

/-- What an event is about: a task, or the number of attempts that still run. -/
inductive Subject where
  | task (id : TaskId)
  | active (count : Nat)
deriving DecidableEq, Repr

namespace Subject

def ofEvent? (e : Event) : Option Subject :=
  match e, e.task? with
  | _, some id => some (.task id)
  | .idle count, none => some (.active count)
  | _, none => none

end Subject

inductive Command where
  | add (input : Json.Value) (priority : Int)
  | cancel (target : TaskId)
  | cancelAll
  | pause
  | resume
  | clearFinished
  | status (target : TaskId)
  | stats
  | unsubscribe
deriving BEq, Repr

namespace Command

def name : Command -> String
  | .add _ _ => "add"
  | .cancel _ => "cancel"
  | .cancelAll => "cancel_all"
  | .pause => "pause"
  | .resume => "resume"
  | .clearFinished => "clear_finished"
  | .status _ => "status"
  | .stats => "stats"
  | .unsubscribe => "unsubscribe"

end Command

inductive Answer where
  | nothing
  | flag (b : Bool)
  | count (n : Nat)
  | status (s : Option Scheduler.Status)
  | refused (r : Scheduler.Refusal)
  | stats (s : Scheduler.Stats)
deriving DecidableEq, Repr

structure Reaction where
  /-- The kind of events that it answers to. -/
  kind : String
  subject : Option Subject
  /-- How often it may still be used. -/
  left : Nat
  command : Command
deriving BEq, Repr

namespace Reaction

def answersTo (r : Reaction) (e : Event) : Bool :=
  r.kind = e.kind && (r.subject.isNone || r.subject = Subject.ofEvent? e) && 0 < r.left

end Reaction

structure Observer where
  name : String
  token : Scheduler.Token
  reactions : List Reaction
deriving Repr

/-- What an observer notes; it is known by its number. -/
inductive Note where
  | saw (observer : Nat) (e : Event)
  | called (observer : Nat) (command : Command) (answer : Answer)
deriving Repr

/-- Who is told of events: the recorder, or an observer by its number. -/
inductive Listener where
  | recorder
  | observer (number : Nat)
deriving DecidableEq, Repr

end Simulation
end CodeSurvey
