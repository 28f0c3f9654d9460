import CodeSurvey.Config.Basic
import CodeSurvey.Log.Outcome
import CodeSurvey.Time.Span

/-!
# Options of the scheduler

Combinations that cannot work are corrected, not refused: there is at least one worker
and room for one waiting task, and there are never fewer worker slots than the lower
bound on them.
-/

namespace CodeSurvey
namespace Scheduler

structure Options where
  minWorkers : Nat
  /-- How many attempts may run at the same time. -/
  maxWorkers : Nat
  maxQueueSize : Nat
  /-- The time limit of one attempt; zero for none. -/
  taskTimeout : Time.Span
  /-- Retries after the first failed attempt. -/
  maxRetries : Nat
  /-- Whether results are reused for equal inputs. -/
  enableCaching : Bool
  /-- How long a shutdown waits before it cancels what still waits. -/
  shutdownGrace : Time.Span
deriving DecidableEq, Repr

namespace Options

def ofSettings (s : Config.SchedulerSettings) : Options :=
  { minWorkers := s.minWorkers
    maxWorkers := s.maxWorkers
    maxQueueSize := s.maxQueueSize
    taskTimeout := .ofMillis s.taskTimeoutMs
    maxRetries := s.maxRetries
    enableCaching := s.enableCaching
    shutdownGrace := .ofMillis s.shutdownGraceMs }

def forWorkers (workers : Nat) : Options :=
  ofSettings (.forWorkers workers)

def default [Machine] : Options :=
  forWorkers Machine.workers

/-!
# Corrections
-/

def raiseMinWorkers (o : Options) : Options × List Log.Entry :=
  if o.minWorkers = 0 then
    ({ o with minWorkers := 1 }, [.warn "min_workers of 0 raised to 1" []])
  else (o, [])

def raiseMaxWorkers (o : Options) : Options × List Log.Entry :=
  if o.maxWorkers < o.minWorkers then
    ({ o with maxWorkers := o.minWorkers },
      [.warn "max_workers raised to min_workers"
        [("max_workers", .nat o.maxWorkers), ("min_workers", .nat o.minWorkers)]])
  else (o, [])

def raiseMaxQueueSize (o : Options) : Options × List Log.Entry :=
  if o.maxQueueSize = 0 then
    ({ o with maxQueueSize := 1 }, [.warn "max_queue_size of 0 raised to 1" []])
  else (o, [])

/-- The corrected options, with a warning for every correction. -/
def correct (o : Options) : Options × List Log.Entry :=
  let (o, first) := o.raiseMinWorkers
  let (o, second) := o.raiseMaxWorkers
  let (o, third) := o.raiseMaxQueueSize
  (o, first ++ second ++ third)

def normalized (o : Options) : Options :=
  o.correct.1

/-- Options that need no correction. -/
structure Sound (o : Options) : Prop where
  one_le_minWorkers : 1 ≤ o.minWorkers
  minWorkers_le_maxWorkers : o.minWorkers ≤ o.maxWorkers
  one_le_maxQueueSize : 1 ≤ o.maxQueueSize

theorem minWorkers_raiseMinWorkers (o : Options) : 1 ≤ o.raiseMinWorkers.1.minWorkers := by
  unfold raiseMinWorkers
  split
  · exact Nat.le_refl 1
  · exact Nat.one_le_iff_ne_zero.mpr (by assumption)

theorem minWorkers_raiseMaxWorkers (o : Options) :
    o.raiseMaxWorkers.1.minWorkers = o.minWorkers := by
  unfold raiseMaxWorkers
  split <;> rfl

theorem minWorkers_le_maxWorkers_raiseMaxWorkers (o : Options) :
    o.minWorkers ≤ o.raiseMaxWorkers.1.maxWorkers := by
  unfold raiseMaxWorkers
  split
  · exact Nat.le_refl _
  · exact Nat.not_lt.mp (by assumption)

theorem raiseMaxQueueSize_workers (o : Options) :
    o.raiseMaxQueueSize.1.minWorkers = o.minWorkers ∧
      o.raiseMaxQueueSize.1.maxWorkers = o.maxWorkers := by
  unfold raiseMaxQueueSize
  split <;> exact ⟨rfl, rfl⟩

theorem maxQueueSize_raiseMaxQueueSize (o : Options) :
    1 ≤ o.raiseMaxQueueSize.1.maxQueueSize := by
  unfold raiseMaxQueueSize
  split
  · exact Nat.le_refl 1
  · exact Nat.one_le_iff_ne_zero.mpr (by assumption)

/-- Corrected options need no further correction. -/
theorem sound_normalized (o : Options) : Sound o.normalized := by
  have hmin := minWorkers_raiseMinWorkers o
  have hsame := minWorkers_raiseMaxWorkers o.raiseMinWorkers.1
  have hmax := minWorkers_le_maxWorkers_raiseMaxWorkers o.raiseMinWorkers.1
  have hworkers := raiseMaxQueueSize_workers o.raiseMinWorkers.1.raiseMaxWorkers.1
  have hqueue := maxQueueSize_raiseMaxQueueSize o.raiseMinWorkers.1.raiseMaxWorkers.1
  constructor
  · show 1 ≤ o.raiseMinWorkers.1.raiseMaxWorkers.1.raiseMaxQueueSize.1.minWorkers
    rw [hworkers.1, hsame]
    exact hmin
  · show o.raiseMinWorkers.1.raiseMaxWorkers.1.raiseMaxQueueSize.1.minWorkers ≤
      o.raiseMinWorkers.1.raiseMaxWorkers.1.raiseMaxQueueSize.1.maxWorkers
    rw [hworkers.1, hworkers.2, hsame]
    exact hmax
  · exact hqueue

def flagText (b : Bool) : String :=
  if b then "true" else "false"

def describe (o : Options) : String :=
  "SchedulerOptions \x7b min_workers: " ++ Text.Decimal.natText o.minWorkers ++
    ", max_workers: " ++ Text.Decimal.natText o.maxWorkers ++
    ", max_queue_size: " ++ Text.Decimal.natText o.maxQueueSize ++
    ", task_timeout: " ++ o.taskTimeout.text ++
    ", max_retries: " ++ Text.Decimal.natText o.maxRetries ++
    ", enable_caching: " ++ flagText o.enableCaching ++
    ", shutdown_grace: " ++ o.shutdownGrace.text ++ " \x7d"

end Options
end Scheduler
end CodeSurvey
