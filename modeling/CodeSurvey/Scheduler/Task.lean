import CodeSurvey.Json.Reader
import CodeSurvey.Time.Span

/-!
# Tasks

A task is one unit of work with its history: when it was submitted, started and
finished, how often it was tried again, and what came of it.  Times are readings of
the clock in whole milliseconds since 1970; what a finer clock shows beyond them is left
out, and so durations are whole milliseconds, too.
-/

namespace CodeSurvey
namespace Scheduler

structure TaskId where
  text : String
deriving DecidableEq, Repr

namespace TaskId

def encode (id : TaskId) : Json.Value :=
  .text id.text

def decode : Json.Reader TaskId := fun o =>
  (Json.Reader.text o).map TaskId.mk

end TaskId

inductive Status where
  | pending
  | running
  | completed
  /-- Out of retries. -/
  | failed
  /-- Taken out of the queue before it ran, or not tried again. -/
  | cancelled
deriving DecidableEq, Repr

namespace Status

def name : Status -> String
  | .pending => "pending"
  | .running => "running"
  | .completed => "completed"
  | .failed => "failed"
  | .cancelled => "cancelled"

def all : List Status :=
  [pending, running, completed, failed, cancelled]

/-- Nothing happens to the task any more. -/
def isTerminal : Status -> Bool
  | .completed | .failed | .cancelled => true
  | .pending | .running => false

def encode (s : Status) : Json.Value :=
  .text s.name

def decode : Json.Reader Status :=
  Json.Reader.oneOf (all.map fun s => (s.name, s))

end Status

inductive Failure where
  | execution (text : String)
  | timedOut (limit : Time.Span)
  | cancelled
  /-- The record of the task was cleared before anybody looked at it. -/
  | cleared
deriving DecidableEq, Repr

namespace Failure

def message : Failure -> String
  | .execution text => "task execution failed: " ++ text
  | .timedOut limit => "task timed out after " ++ Text.Decimal.natText limit.millis ++ "ms"
  | .cancelled => "task was cancelled"
  | .cleared => "task record was cleared before its result was collected"

end Failure

/-- What goes wrong in an attempt. -/
inductive Setback where
  | execution (text : String)
  | timedOut
deriving DecidableEq, Repr

/-- An attempt that takes too long fails with its time limit. -/
def Setback.failure (limit : Time.Span) : Setback -> Failure
  | .execution text => .execution text
  | .timedOut => .timedOut limit

inductive Refusal where
  | queueFull (capacity : Nat)
  | shuttingDown
  /-- No processor was ever set. -/
  | noProcessor
deriving DecidableEq, Repr

namespace Refusal

def message : Refusal -> String
  | .queueFull capacity =>
      "Task queue is full (capacity " ++ Text.Decimal.natText capacity ++ ")"
  | .shuttingDown => "Scheduler is shutting down"
  | .noProcessor => "No processor has been set"

end Refusal

structure Task (i o : Type) where
  id : TaskId
  input : i
  /-- Tasks of higher priority run first. -/
  priority : Int
  status : Status
  result : Option o
  error : Option Failure
  /-- Failed attempts after which the task was tried again. -/
  retries : Nat
  createdAt : Int
  /-- When the last attempt started. -/
  startedAt : Option Int
  completedAt : Option Int
deriving Repr

namespace Task

def new (id : TaskId) (input : i) (priority : Int) (now : Int) : Task i o :=
  { id, input, priority, status := .pending, result := none, error := none, retries := 0
    createdAt := now, startedAt := none, completedAt := none }

/-- The time from the start of the last attempt to the end; nothing when the clock
went back between them. -/
def duration (t : Task i o) : Option Time.Span :=
  match t.startedAt, t.completedAt with
  | some started, some completed =>
      if started ≤ completed then some (.ofMillis (completed - started).toNat) else none
  | _, _ => none

end Task
end Scheduler
end CodeSurvey
