import CodeSurvey.Scheduler.Cancel
import CodeSurvey.Scheduler.Host
import CodeSurvey.Scheduler.Submit

/-!
# Batches

A batch is a list of tasks that are submitted together, or not at all.  Each of them is
looked at until it has come to its end; the result that it had then is kept, whatever
becomes of its record afterwards.
-/

namespace CodeSurvey
namespace Scheduler

structure BatchResult (o : Type) where
  id : TaskId
  success : Bool
  result : Option o
  error : Option Failure
  retries : Nat
  duration : Option Time.Span
deriving DecidableEq, Repr

namespace BatchResult

def ofTask (t : Task i o) : BatchResult o :=
  { id := t.id
    success := t.status = .completed
    result := t.result
    error := t.error
    retries := t.retries
    duration := t.duration }

def cleared (id : TaskId) : BatchResult o :=
  { id, success := false, result := none, error := some .cleared, retries := 0
    duration := none }

end BatchResult

structure BatchEntry (o : Type) where
  id : TaskId
  result : Option (BatchResult o)
deriving DecidableEq, Repr

namespace BatchEntry

def look (s : State p i o) (e : BatchEntry o) : BatchEntry o :=
  match e.result, s.task? e.id with
  | some _, _ => e
  | none, some t => if t.status.isTerminal then { e with result := some (.ofTask t) } else e
  | none, none => { e with result := some (.cleared e.id) }

end BatchEntry

abbrev Batch (o : Type) := List (BatchEntry o)

namespace Batch

def ofIds (ids : List TaskId) : Batch o :=
  ids.map fun id => { id, result := none }

def look (s : State p i o) (b : Batch o) : Batch o :=
  b.map (BatchEntry.look s)

/-- All results in the order of the inputs, once they have all been seen. -/
def results? (b : Batch o) : Option (List (BatchResult o)) :=
  b.mapM BatchEntry.result

/-!
# Submitting a batch
-/

/-- Submit inputs until one is refused; `ids` holds the tasks submitted before. -/
def submitAll (h : Host p i o w) (c : Coding i o) (ids : List TaskId) :
    List i -> w -> w × List TaskId × Option Refusal
  | [], x => (x, ids, none)
  | input :: rest, x =>
      match h.call x (·.submit c (h.now x) input 0) with
      | (x, .ok task) => submitAll h c (ids ++ [task.id]) rest x
      | (x, .error refusal) => (x, ids, some refusal)

def cancelEach (h : Host p i o w) (ids : List TaskId) (x : w) : w × Nat :=
  ids.foldl
    (fun (x, count) id =>
      let (x, found) := h.call x (·.cancel (h.now x) id)
      (x, if found then count + 1 else count))
    (x, 0)

def rejectedLog (refusal : Refusal) (cancelled : Nat) : List Log.Entry :=
  [.warn "batch submission rejected"
    [("err", .text refusal.message), ("cancelled", .nat cancelled)]]

/-- Submit all inputs, or take back what was submitted of them. -/
def submit (h : Host p i o w) (c : Coding i o) (inputs : List i) (x : w) :
    w × Except Refusal (Batch o) :=
  match submitAll h c [] inputs x with
  | (x, ids, none) => (x, .ok (ofIds ids))
  | (x, ids, some refusal) =>
      let (x, cancelled) := cancelEach h ids x
      (h.write x (rejectedLog refusal cancelled), .error refusal)

end Batch
end Scheduler
end CodeSurvey
