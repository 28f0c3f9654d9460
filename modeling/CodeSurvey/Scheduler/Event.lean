import CodeSurvey.Log.Entry
import CodeSurvey.Scheduler.Task

/-!
# Events

What the scheduler tells its observers, in the order in which it happens.
-/

namespace CodeSurvey
namespace Scheduler

inductive Event where
  | queued (id : TaskId) (priority : Int)
  /-- An attempt took a worker slot. -/
  | started (id : TaskId) (attempt : Nat)
  /-- An attempt failed and the task waits for the next one. -/
  | retrying (id : TaskId) (retries : Nat) (error : String)
  | completed (id : TaskId) (duration : Time.Span) (cached : Bool)
  | failed (id : TaskId) (retries : Nat) (error : String)
  | cancelled (id : TaskId)
  /-- A worker slot became free and nothing waits. -/
  | idle (active : Nat)
  /-- Nothing waits and nothing runs. -/
  | drained
deriving DecidableEq, Repr

namespace Event

def task? : Event -> Option TaskId
  | .queued id _ | .started id _ | .retrying id _ _ | .completed id _ _ | .failed id _ _
  | .cancelled id => some id
  | .idle _ | .drained => none

def kind : Event -> String
  | .queued _ _ => "queued"
  | .started _ _ => "started"
  | .retrying _ _ _ => "retrying"
  | .completed _ _ _ => "completed"
  | .failed _ _ _ => "failed"
  | .cancelled _ => "cancelled"
  | .idle _ => "idle"
  | .drained => "drained"

/-- The source that the log names for events. -/
def logSource : String := "drift_scan::reporter"

def entry : Event -> Log.Entry
  | .queued id priority =>
      .debug "task queued" [("task", .text id.text), ("priority", .integer priority)]
  | .started id attempt =>
      .debug "task started" [("task", .text id.text), ("attempt", .nat attempt)]
  | .retrying id retries error =>
      .warn (id.text ++ " failed, retry " ++ Text.Decimal.natText retries ++ ": " ++ error) []
  | .completed id duration cached =>
      if cached then .info (id.text ++ " completed (cached)") []
      else
        .info (id.text ++ " completed in " ++ Number.Fixed.text 3 duration.seconds ++ "s") []
  | .failed id retries error =>
      .error
        (id.text ++ " failed after " ++ Text.Decimal.natText retries ++ " retries: " ++ error) []
  | .cancelled id => .info (id.text ++ " cancelled") []
  | .idle active => .debug "worker slot idle" [("active", .nat active)]
  | .drained => .info "task queue drained" []

end Event
end Scheduler
end CodeSurvey
