import CodeSurvey.Cache.Basic
import CodeSurvey.Digest
import CodeSurvey.Scheduler.Event
import CodeSurvey.Scheduler.Ids
import CodeSurvey.Scheduler.Options
import CodeSurvey.Scheduler.Queue

/-!
# The state of the scheduler

The scheduler keeps a record of every task, the queue of those that wait, the attempts
that are in flight, the cache of results and what is on its way there, its counters, and the
events that its observers have not been told yet.
-/

namespace CodeSurvey
namespace Scheduler

/-- How the inputs and the results of tasks are written. -/
structure Coding (i o : Type) where
  /-- The value that an input is written as; some inputs cannot be written. -/
  input : i -> Option Json.Value
  output : Cache.Form o

namespace Coding

/-- The cache knows the result for an input by the digest of the input's text. -/
def key (c : Coding i o) (x : i) : Option String :=
  (c.input x).map fun v => Digest.ofText v.compact

end Coding

structure Record (i o : Type) where
  task : Task i o
  number : Nat
  cacheKey : Option String
deriving Repr

/-- A task that has taken a worker slot, and what works on it. -/
structure Attempt (p i : Type) where
  id : TaskId
  input : i
  /-- The time limit; zero for none. -/
  limit : Time.Span
  processor : p
deriving Repr

/-- What the task of an attempt is told of its end. -/
def Attempt.outcome (a : Attempt p i) (found : Except Setback o) : Except Failure o :=
  found.mapError (·.failure a.limit)

/-- The value of an attempt that has completed its task, on its way to the cache. -/
structure Yield (o : Type) where
  id : TaskId
  key : String
  value : o
deriving Repr

structure State (p i o : Type) where
  options : Options
  processor : Option p
  ids : IdSource
  queue : Queue
  /-- The tasks in the order of their submission. -/
  records : List (Record i o)
  inFlight : List (Attempt p i)
  active : Nat
  paused : Bool
  shuttingDown : Bool
  /-- Once the grace of a shutdown has elapsed, nothing is tried again. -/
  retriesClosed : Bool
  nextNumber : Nat
  retries : Nat
  cacheHits : Nat
  completedRuns : Nat
  /-- The mean length of the successful attempts, in seconds. -/
  averageSeconds : Float
  peakRunning : Nat
  cache : Cache o
  /-- The values that are still to be put into the cache. -/
  yields : List (Yield o)
  /-- Events that are still to be delivered, in the order in which they happened. -/
  events : List Event

namespace State

def empty (options : Options) (ids : IdSource) (cache : Cache o) : State p i o :=
  { options
    processor := none
    ids
    queue := []
    records := []
    inFlight := []
    active := 0
    paused := false
    shuttingDown := false
    retriesClosed := false
    nextNumber := 0
    retries := 0
    cacheHits := 0
    completedRuns := 0
    averageSeconds := 0
    peakRunning := 0
    cache
    yields := []
    events := [] }

def new (options : Options) (cacheOptions : Cache.Options) (ids : IdSource) :
    Log.Outcome (State p i o) Unit :=
  let (options, log) := options.correct
  let cache := Cache.new cacheOptions
  { state := empty options ids cache.state, result := (), log := log ++ cache.log }

/-!
# Records
-/

def record? (s : State p i o) (id : TaskId) : Option (Record i o) :=
  s.records.find? fun r => r.task.id = id

def task? (s : State p i o) (id : TaskId) : Option (Task i o) :=
  (s.record? id).map Record.task

def pending? (s : State p i o) (id : TaskId) : Option (Record i o) :=
  (s.record? id).filter fun r => r.task.status = .pending

def updateTask (s : State p i o) (id : TaskId) (f : Task i o -> Task i o) : State p i o :=
  { s with
    records := s.records.map fun r => if r.task.id = id then { r with task := f r.task } else r }

def emit (s : State p i o) (e : Event) : State p i o :=
  { s with events := s.events ++ [e] }

def isDrained (s : State p i o) : Bool :=
  s.queue.isEmpty && s.active = 0

def hasFreeSlot (s : State p i o) : Bool :=
  !s.paused && s.active < s.options.maxWorkers

def withStatus (s : State p i o) (status : Status) : Nat :=
  s.records.countP fun r => r.task.status = status

def describe (s : State p i o) : String :=
  "TaskScheduler \x7b options: " ++ s.options.describe ++
    ", queued: " ++ Text.Decimal.natText s.queue.length ++
    ", active: " ++ Text.Decimal.natText s.active ++
    ", paused: " ++ Options.flagText s.paused ++ " \x7d"

end State

/-!
# Counters
-/

structure Stats where
  total : Nat
  pending : Nat
  running : Nat
  completed : Nat
  failed : Nat
  cancelled : Nat
  retries : Nat
  cacheHits : Nat
  averageDuration : Time.Span
  peakRunning : Nat
  queueLength : Nat
  maxWorkers : Nat
  paused : Bool
  shuttingDown : Bool
deriving DecidableEq, Repr

def State.stats (s : State p i o) : Stats :=
  { total := s.records.length
    pending := s.withStatus .pending
    running := s.withStatus .running
    completed := s.withStatus .completed
    failed := s.withStatus .failed
    cancelled := s.withStatus .cancelled
    retries := s.retries
    cacheHits := s.cacheHits
    averageDuration := .ofSeconds s.averageSeconds
    peakRunning := s.peakRunning
    queueLength := s.queue.length
    maxWorkers := s.options.maxWorkers
    paused := s.paused
    shuttingDown := s.shuttingDown }

/-!
# Changes
-/

/-- What an operation does at once, and what has to follow it. -/
structure Change (s a : Type) where
  state : s
  result : a
  log : List Log.Entry
  /-- Whether those who wait for the scheduler look at it again. -/
  wakes : Bool
  /-- Whether tasks may be started now. -/
  dispatches : Bool

namespace Change

def only (state : s) (result : a) (log : List Log.Entry) : Change s a :=
  { state, result, log, wakes := false, dispatches := false }

def waking (state : s) (result : a) (log : List Log.Entry) : Change s a :=
  { state, result, log, wakes := true, dispatches := false }

def starting (state : s) (result : a) (log : List Log.Entry) : Change s a :=
  { state, result, log, wakes := true, dispatches := true }

end Change
end Scheduler
end CodeSurvey
