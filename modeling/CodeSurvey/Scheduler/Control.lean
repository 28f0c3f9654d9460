import CodeSurvey.Scheduler.State

/-!
# Control of the scheduler

Pausing, new options, a new processor, and clearing what is no longer needed.
-/

namespace CodeSurvey
namespace Scheduler
namespace State

/-- Start nothing more; submissions are still accepted. -/
def pause (s : State p i o) : Change (State p i o) Unit :=
  .waking { s with paused := true } () [.debug "scheduler paused" []]

def resume (s : State p i o) : Change (State p i o) Unit :=
  .starting { s with paused := false } () [.debug "scheduler resumed" []]

/-- Replace the options by others, which are corrected first. -/
def configure (s : State p i o) (options : Options) : Change (State p i o) Unit :=
  let (options, log) := options.correct
  .starting { s with options } ()
    (log ++ [.debug "scheduler reconfigured" [("options", .text options.describe)]])

/-- Attempts in flight stay with the processor that they started with. -/
def setProcessor (s : State p i o) (processor : p) : Change (State p i o) Unit :=
  .only { s with processor := some processor } () []

/-- Forget the tasks to which nothing happens any more, and count them. -/
def clearFinished (s : State p i o) : Change (State p i o) Nat :=
  let left := s.records.filter fun r => !r.task.status.isTerminal
  .only { s with records := left } (s.records.length - left.length) []

def clearCache (s : State p i o) : Change (State p i o) Unit :=
  .only { s with cache := s.cache.clear } () []

end State
end Scheduler
end CodeSurvey
