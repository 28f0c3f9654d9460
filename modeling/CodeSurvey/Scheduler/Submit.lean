import CodeSurvey.Scheduler.State

/-!
# Submitting a task

A submission is refused during a shutdown, without a processor, and when the queue is
full.  An input whose result is cached is answered at once, whatever the queue holds.
-/

namespace CodeSurvey
namespace Scheduler
namespace State

/-- An answer from the cache takes no time. -/
def answered (t : Task i o) (value : o) (now : Int) : Task i o :=
  { t with
    status := .completed, result := some value, startedAt := some now, completedAt := some now }

/-- Why a submission is refused before its input is looked at. -/
def refusal? (s : State p i o) : Option Refusal :=
  if s.shuttingDown then some .shuttingDown
  else if s.processor.isNone then some .noProcessor
  else none

/-- The cache key of an input, while results are reused. -/
def cacheKey (c : Coding i o) (s : State p i o) (input : i) : Option String :=
  if s.options.enableCaching then c.key input else none

def cacheKeyLog (c : Coding i o) (s : State p i o) (input : i) : List Log.Entry :=
  if s.options.enableCaching && (c.key input).isNone then
    [.debug "input not serializable, caching skipped" [("err", .text "not serializable")]]
  else []

def lookUp (s : State p i o) (now : Int) : Option String -> Log.Outcome (State p i o) (Option o)
  | none => .quiet s none
  | some key =>
      let found := s.cache.get now key
      { state := { s with cache := found.state }, result := found.result, log := found.log }

def addRecord (s : State p i o) (r : Record i o) : State p i o :=
  { s with records := s.records ++ [r] }

/-- Take in a task, which is answered at once or has to wait. -/
def accept (s : State p i o) (now : Int) (input : i) (priority : Int) (key : Option String)
    (cached : Option o) : State p i o × Task i o :=
  let (id, ids) := s.ids.next
  let number := s.nextNumber
  let task := Task.new id input priority now
  let s := { s with ids, nextNumber := number + 1 }
  let s := s.emit (.queued id priority)
  match cached with
  | some value =>
      let task := answered task value now
      let s := { s.addRecord { task, number, cacheKey := key } with
        cacheHits := s.cacheHits + 1 }
      (s.emit (.completed id .zero true), task)
  | none =>
      ({ s.addRecord { task, number, cacheKey := key } with
        queue := s.queue.enter { id, priority, number } }, task)

def submit (c : Coding i o) (s : State p i o) (now : Int) (input : i) (priority : Int) :
    Change (State p i o) (Except Refusal (Task i o)) :=
  match s.refusal? with
  | some refusal => .only s (.error refusal) []
  | none =>
      let key := s.cacheKey c input
      let found := s.lookUp now key
      let log := s.cacheKeyLog c input ++ found.log
      let s := found.state
      if found.result.isNone && s.options.maxQueueSize ≤ s.queue.length then
        .only s (.error (.queueFull s.options.maxQueueSize)) log
      else
        let (s, task) := s.accept now input priority key found.result
        .starting s (.ok task) log

end State
end Scheduler
end CodeSurvey
