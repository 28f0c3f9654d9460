import CodeSurvey.Scheduler.Cancel
import CodeSurvey.Scheduler.Host

/-!
# Shutdown

A shutdown refuses new tasks and waits until nothing waits and nothing runs.  If that
takes longer than its grace, it cancels what still waits, and from then on nothing is
tried again.  A second shutdown waits in the same way.
-/

namespace CodeSurvey
namespace Scheduler
namespace State

/-- From now on submissions are refused. -/
def beginShutdown (s : State p i o) : Change (State p i o) Unit :=
  if s.shuttingDown then .waking s () []
  else
    .waking { s with shuttingDown := true } ()
      [.info "scheduler shutting down"
        [("queued", .nat s.queue.length), ("running", .nat s.active)]]

/-- From now on nothing is tried again. -/
def closeRetries (s : State p i o) : Change (State p i o) Unit :=
  .only { s with retriesClosed := true } () []

end State

inductive Shutdown where
  /-- Within its grace, given in milliseconds. -/
  | waiting (grace : Nat)
  /-- Behind its grace. -/
  | stopping
  | stopped
deriving DecidableEq, Repr

namespace Shutdown

/-- The last stage: wait until nothing waits and nothing runs. -/
def stop (h : Host p i o w) (x : w) : w × Shutdown :=
  if (h.state x).isDrained then (h.write x [.info "scheduler stopped" []], .stopped)
  else (x, .stopping)

def graceElapsedLog (cancelled grace : Nat) : List Log.Entry :=
  [.warn "shutdown grace period elapsed"
    [("cancelled", .nat cancelled), ("grace_ms", .nat grace)]]

/-- The grace has elapsed: what still waits is cancelled. -/
def endGrace (h : Host p i o w) (grace : Nat) (x : w) : w × Shutdown :=
  let (x, _) := h.call x (·.closeRetries)
  let (x, cancelled) := h.call x (·.cancelAll (h.now x))
  stop h (h.write x (graceElapsedLog cancelled grace))

def look (h : Host p i o w) (elapsed : Bool) (x : w) : Shutdown -> w × Shutdown
  | .waiting grace =>
      if (h.state x).isDrained then stop h x
      else if elapsed then endGrace h grace x
      else (x, .waiting grace)
  | .stopping => stop h x
  | .stopped => (x, .stopped)

def start (h : Host p i o w) (grace : Option Nat) (x : w) : w × Shutdown :=
  let grace := grace.getD (h.state x).options.shutdownGrace.millis
  let (x, _) := h.call x (·.beginShutdown)
  look h (grace = 0) x (.waiting grace)

end Shutdown
end Scheduler
end CodeSurvey
