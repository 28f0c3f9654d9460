import CodeSurvey.Scheduler.State

/-!
# Cancelling tasks

Only tasks that wait can be cancelled.  When nothing is left to wait for and nothing
runs, the observers are told last.
-/

namespace CodeSurvey
namespace Scheduler
namespace State

def cancelled (t : Task i o) (now : Int) : Task i o :=
  { t with status := .cancelled, error := some .cancelled, completedAt := some now }

/-- Mark a task that waits as cancelled, and say whether there was one. -/
def markCancelled (s : State p i o) (now : Int) (id : TaskId) : State p i o × Bool :=
  match s.pending? id with
  | some _ => ((s.updateTask id (cancelled · now)).emit (.cancelled id), true)
  | none => (s, false)

def emitDrained (s : State p i o) : State p i o :=
  if s.isDrained then s.emit .drained else s

def cancel (s : State p i o) (now : Int) (id : TaskId) : Change (State p i o) Bool :=
  match s.markCancelled now id with
  | (s, true) =>
      let s := { s with queue := s.queue.leave id }
      .waking s.emitDrained true [.debug "task cancelled" [("task", .text id.text)]]
  | (s, false) => .only s false []

/-- Mark tasks one after the other, counting those that waited. -/
def markAllCancelled (s : State p i o) (now : Int) (ids : List TaskId) : State p i o × Nat :=
  ids.foldl
    (fun (s, count) id =>
      let (s, found) := s.markCancelled now id
      (s, if found then count + 1 else count))
    (s, 0)

/-- Cancel all tasks that wait, in the order in which they would have been started. -/
def cancelAll (s : State p i o) (now : Int) : Change (State p i o) Nat :=
  let waiting := s.queue.map Waiting.id
  let s := { s with queue := [] }
  let (s, count) := s.markAllCancelled now waiting
  if count = 0 then .only s 0 []
  else .waking s.emitDrained count [.info "pending tasks cancelled" [("count", .nat count)]]

end State
end Scheduler
end CodeSurvey
