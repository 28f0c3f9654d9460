import CodeSurvey.Scheduler.Task

/-!
# Tasks that wait

The queue holds the tasks that wait in the order in which they will be started: higher
priority first, and among equals the one that was submitted first.
-/

namespace CodeSurvey
namespace Scheduler

structure Waiting where
  id : TaskId
  priority : Int
  /-- The number of the task in the order of submission. -/
  number : Nat
deriving DecidableEq, Repr

namespace Waiting

/-- Whether a task is started before another one. -/
def before (a b : Waiting) : Bool :=
  b.priority < a.priority || (a.priority = b.priority && a.number < b.number)

end Waiting

abbrev Queue := List Waiting

namespace Queue

def enter (q : Queue) (w : Waiting) : Queue :=
  match q with
  | [] => [w]
  | next :: rest =>
      if w.before next then w :: next :: rest else next :: enter rest w

def leave (q : Queue) (id : TaskId) : Queue :=
  q.filter fun w => w.id ≠ id

theorem mem_enter {w x : Waiting} {q : Queue} : x ∈ q.enter w ↔ x = w ∨ x ∈ q := by
  induction q with
  | nil => simp [enter]
  | cons next rest ih =>
      by_cases h : w.before next
      · simp [enter, h]
      · simp only [enter, h, Bool.false_eq_true, if_false, List.mem_cons, ih]
        rw [← or_assoc, ← or_assoc, or_comm (a := x = next)]

theorem length_enter (w : Waiting) (q : Queue) : (q.enter w).length = q.length + 1 := by
  induction q with
  | nil => rfl
  | cons next rest ih =>
      by_cases h : w.before next
      · simp [enter, h]
      · simp [enter, h, ih]

end Queue
end Scheduler
end CodeSurvey
