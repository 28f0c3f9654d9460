import CodeSurvey.Scheduler.State

/-!
# Attempts

Tasks are started while worker slots are free.  A failed attempt is tried again until
the retries are used up; a task that is tried again keeps its place in the order of
submission.
-/

namespace CodeSurvey
namespace Scheduler
namespace State

/-!
# Starting
-/

def started (t : Task i o) (now : Int) : Task i o :=
  { t with status := .running, startedAt := some now }

def startTask (s : State p i o) (now : Int) (processor : p) (t : Task i o) :
    State p i o × Attempt p i :=
  let attempt : Attempt p i :=
    { id := t.id, input := t.input, limit := s.options.taskTimeout, processor }
  let s := { s.updateTask t.id (started · now) with
    active := s.active + 1
    peakRunning := max s.peakRunning (s.active + 1)
    inFlight := s.inFlight ++ [attempt] }
  (s.emit (.started t.id (t.retries + 1)), attempt)

/-- Start tasks from the front of a queue; the rest of it stays. -/
def startFrom (now : Int) (processor : p) :
    Queue -> State p i o -> State p i o × List (Attempt p i)
  | [], s => ({ s with queue := [] }, [])
  | next :: rest, s =>
      if s.hasFreeSlot then
        match s.pending? next.id with
        | some r =>
            let (s, attempt) := s.startTask now processor r.task
            let (s, attempts) := startFrom now processor rest s
            (s, attempt :: attempts)
        | none => startFrom now processor rest s
      else ({ s with queue := next :: rest }, [])

def dispatch (s : State p i o) (now : Int) : State p i o × List (Attempt p i) :=
  match s.processor with
  | some processor => startFrom now processor s.queue s
  | none => (s, [])

/-!
# Ending
-/

def succeeded (t : Task i o) (value : o) (now : Int) : Task i o :=
  { t with status := .completed, result := some value, error := none, completedAt := some now }

def failed (t : Task i o) (error : Failure) (now : Int) : Task i o :=
  { t with status := .failed, error := some error, completedAt := some now }

def retried (t : Task i o) (error : Failure) : Task i o :=
  { t with status := .pending, error := some error, retries := t.retries + 1 }

def givenUp (t : Task i o) (now : Int) : Task i o :=
  { t with status := .cancelled, error := some .cancelled, completedAt := some now }

/-- Count one more successful attempt into the mean. -/
def countDuration (s : State p i o) (elapsed : Time.Span) : State p i o :=
  let runs := s.completedRuns + 1
  { s with
    completedRuns := runs
    averageSeconds :=
      s.averageSeconds + (elapsed.seconds - s.averageSeconds) / Float.ofNat runs }

def release (s : State p i o) (id : TaskId) : State p i o :=
  { s with
    active := s.active - 1
    inFlight := s.inFlight.filter fun attempt => attempt.id ≠ id }

def complete (s : State p i o) (now : Int) (id : TaskId) (value : o) (elapsed : Time.Span) :
    State p i o :=
  ((s.updateTask id (succeeded · value now)).emit (.completed id elapsed false)).countDuration
    elapsed

def retry (s : State p i o) (r : Record i o) (error : Failure) : State p i o :=
  let id := r.task.id
  let s := { s.updateTask id (retried · error) with
    retries := s.retries + 1
    queue := s.queue.enter { id, priority := r.task.priority, number := r.number } }
  s.emit (.retrying id (r.task.retries + 1) error.message)

def giveUp (s : State p i o) (now : Int) (id : TaskId) : State p i o :=
  (s.updateTask id (givenUp · now)).emit (.cancelled id)

def giveUpLog (id : TaskId) (error : Failure) : List Log.Entry :=
  [.debug "attempt failed after shutdown grace, not retried"
    [("task", .text id.text), ("error", .text error.message)]]

def fail (s : State p i o) (now : Int) (r : Record i o) (error : Failure) : State p i o :=
  (s.updateTask r.task.id (failed · error now)).emit
    (.failed r.task.id r.task.retries error.message)

/-- What becomes of a task whose attempt has ended. -/
def conclude (s : State p i o) (now : Int) (r : Record i o) (outcome : Except Failure o)
    (elapsed : Time.Span) : State p i o × List Log.Entry :=
  match outcome with
  | .ok value => (s.complete now r.task.id value elapsed, [])
  | .error error =>
      if r.task.retries < s.options.maxRetries then
        if s.retriesClosed then (s.giveUp now r.task.id, giveUpLog r.task.id error)
        else (s.retry r error, [])
      else (s.fail now r error, [])

def emitIdle (s : State p i o) : State p i o :=
  if s.queue.isEmpty then
    let s := s.emit (.idle s.active)
    if s.active = 0 then s.emit .drained else s
  else s

/-- The value of an attempt that is to be put into the cache, while results are reused. -/
def yield? (s : State p i o) (r : Record i o) (outcome : Except Failure o) : Option (Yield o) :=
  match s.options.enableCaching, r.cacheKey, outcome with
  | true, some key, .ok value => some { id := r.task.id, key, value }
  | _, _, _ => none

/-- An attempt has ended: its task is what it has made of it. -/
def finish (s : State p i o) (now : Int) (id : TaskId) (outcome : Except Failure o)
    (elapsed : Time.Span) : Change (State p i o) Unit :=
  let s := s.release id
  match s.record? id with
  | none => .starting s.emitIdle () []
  | some r =>
      let yields := s.yields ++ (s.yield? r outcome).toList
      let (s, log) := s.conclude now r outcome elapsed
      .starting { s.emitIdle with yields } () log

/-!
# Storing

The value of an attempt is put into the cache after its task was completed.  Whoever looks at
the scheduler in between finds the task completed, but not its value in the cache.
-/

/-- Put one of the values that are on their way into the cache. -/
def store (c : Coding i o) (s : State p i o) (now : Int) (place : Nat) :
    Change (State p i o) Unit :=
  match s.yields[place]? with
  | some y =>
      let kept := s.cache.set c.output now y.key y.value
      .only { s with cache := kept.state, yields := s.yields.eraseIdx place } () kept.log
  | none => .only s () []

/-- An attempt has ended, and its value is stored before anything else happens. -/
def finishAndStore (c : Coding i o) (s : State p i o) (now : Int) (id : TaskId)
    (outcome : Except Failure o) (elapsed : Time.Span) : Change (State p i o) Unit :=
  let finished := s.finish now id outcome elapsed
  let stored := finished.state.store c now s.yields.length
  { finished with state := stored.state, log := finished.log ++ stored.log }

end State
end Scheduler
end CodeSurvey
