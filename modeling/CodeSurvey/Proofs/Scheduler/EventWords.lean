import CodeSurvey.Scheduler.Event

/-!
# The life of a task

What the observers are told of one task is a word of a small language: a task is queued,
and then it is answered from the cache or tried until an attempt succeeds, the retries
are used up, or the task is cancelled.
-/

namespace CodeSurvey
namespace Scheduler

namespace Event

def isQueued : Event -> Bool
  | .queued _ _ => true
  | _ => false

def isRetrying : Event -> Bool
  | .retrying _ _ _ => true
  | _ => false

def isHit : Event -> Bool
  | .completed _ _ cached => cached
  | _ => false

/-- Nothing more is told of the task. -/
def isFinal : Event -> Bool
  | .completed _ _ _ | .failed _ _ _ | .cancelled _ => true
  | _ => false

/-- The status that a task has when this was the last that was told of it. -/
def status? : Event -> Option Status
  | .queued _ _ | .retrying _ _ _ => some .pending
  | .started _ _ => some .running
  | .completed _ _ _ => some .completed
  | .failed _ _ _ => some .failed
  | .cancelled _ => some .cancelled
  | .idle _ | .drained => none

/-- What was told of one task. -/
def about (id : TaskId) (events : List Event) : List Event :=
  events.filter fun e => e.task? = some id

theorem append_eq_split {log more before after : List Event} {e : Event}
    (h : log ++ more = before ++ e :: after) :
    (exists rest, log = before ++ e :: rest ∧ after = rest ++ more) ∨
      exists mid, before = log ++ mid ∧ more = mid ++ e :: after := by
  rcases List.append_eq_append_iff.mp h with ⟨mid, hbefore, hmore⟩ | ⟨rest, hlog, hafter⟩
  · exact Or.inr ⟨mid, hbefore, hmore⟩
  · cases rest with
    | nil =>
        rw [List.append_nil] at hlog
        exact Or.inr ⟨[], by rw [hlog, List.append_nil], hafter.symm⟩
    | cons first rest =>
        rcases List.cons.inj hafter with ⟨rfl, rfl⟩
        exact Or.inl ⟨rest, hlog, rfl⟩

theorem eq_of_concat {first mid after : List Event} {e : Event}
    (h : first ++ [e] = mid ++ e :: after) (hfirst : e ∉ first) : mid = first := by
  rcases append_eq_split h with ⟨rest, heq, _⟩ | ⟨more, hmid, hsingle⟩
  · rw [heq] at hfirst
    exact absurd (List.mem_append_right _ List.mem_cons_self) hfirst
  · cases more with
    | nil => exact hmid.trans (List.append_nil first)
    | cons _ more => exact absurd (List.cons.inj hsingle).2.symm (by simp)

end Event

/-- What is told of a task from when it waits for its attempt `k` on.  Only when the grace
of a shutdown has elapsed can a task be cancelled that was started. -/
inductive Trials (graceElapsed : Prop) (id : TaskId) : Nat -> List Event -> Prop where
  | cancelled : Trials graceElapsed id k [.cancelled id]
  | completed : Trials graceElapsed id k [.started id k, .completed id duration false]
  | failed : Trials graceElapsed id k [.started id k, .failed id (k - 1) error]
  | givenUp (h : graceElapsed) : Trials graceElapsed id k [.started id k, .cancelled id]
  | retrying (h : Trials graceElapsed id (k + 1) rest) :
      Trials graceElapsed id k (.started id k :: .retrying id k error :: rest)

/-- All that is told of a task. -/
inductive Life (graceElapsed : Prop) (id : TaskId) : List Event -> Prop where
  | answered : Life graceElapsed id [.queued id priority, .completed id .zero true]
  | tried (h : Trials graceElapsed id 1 rest) :
      Life graceElapsed id (.queued id priority :: rest)

/-!
# What was told so far

A task with a status and a number of retries has this much of its life behind it.
-/

inductive Told (graceElapsed : Prop) (id : TaskId) :
    Status -> Nat -> List Event -> Prop where
  | queued : Told graceElapsed id .pending 0 [.queued id priority]
  | answered :
      Told graceElapsed id .completed 0 [.queued id priority, .completed id .zero true]
  | started (h : Told graceElapsed id .pending n events) :
      Told graceElapsed id .running n (events ++ [.started id (n + 1)])
  | cancelled (h : Told graceElapsed id .pending n events) :
      Told graceElapsed id .cancelled n (events ++ [.cancelled id])
  | completed (h : Told graceElapsed id .running n events) :
      Told graceElapsed id .completed n (events ++ [.completed id duration false])
  | retrying (h : Told graceElapsed id .running n events) :
      Told graceElapsed id .pending (n + 1) (events ++ [.retrying id (n + 1) error])
  | failed (h : Told graceElapsed id .running n events) :
      Told graceElapsed id .failed n (events ++ [.failed id n error])
  | givenUp (hgrace : graceElapsed) (h : Told graceElapsed id .running n events) :
      Told graceElapsed id .cancelled n (events ++ [.cancelled id])

namespace Told

variable {graceElapsed : Prop} {id : TaskId} {status : Status} {n : Nat}
  {events : List Event}

theorem mono {graceElapsed' : Prop} (himp : graceElapsed -> graceElapsed')
    (h : Told graceElapsed id status n events) : Told graceElapsed' id status n events := by
  induction h with
  | queued => exact queued
  | answered => exact answered
  | started _ ih => exact started ih
  | cancelled _ ih => exact cancelled ih
  | completed _ ih => exact completed ih
  | retrying _ ih => exact retrying ih
  | failed _ ih => exact failed ih
  | givenUp hgrace _ ih => exact givenUp (himp hgrace) ih

/-- How a life goes on from here, by the status. -/
def GoesOn (graceElapsed : Prop) (id : TaskId) (n : Nat) (events : List Event) :
    Status -> Prop
  | .pending => forall rest, Trials graceElapsed id (n + 1) rest ->
      Life graceElapsed id (events ++ rest)
  | .running => forall rest, Trials graceElapsed id (n + 1) (.started id (n + 1) :: rest) ->
      Life graceElapsed id (events ++ rest)
  | .completed | .failed | .cancelled => Life graceElapsed id events

theorem goesOn (h : Told graceElapsed id status n events) :
    GoesOn graceElapsed id n events status := by
  -- `Told` grows at its end and `Trials` at its front, so the rest is the invariant.
  induction h with
  | queued => exact fun _ hrest => Life.tried hrest
  | answered => exact Life.answered
  | started _ ih =>
      intro rest hrest
      rw [List.append_assoc]
      exact ih _ hrest
  | cancelled _ ih => exact ih _ Trials.cancelled
  | completed _ ih => exact ih _ Trials.completed
  | retrying _ ih =>
      intro rest hrest
      rw [List.append_assoc]
      exact ih _ (Trials.retrying hrest)
  | failed _ ih => exact ih _ Trials.failed
  | givenUp hgrace _ ih => exact ih _ (Trials.givenUp hgrace)

theorem exists_life (h : Told graceElapsed id status n events) :
    exists rest, Life graceElapsed id (events ++ rest) := by
  have hlife := h.goesOn
  cases status with
  | pending => exact ⟨_, hlife _ Trials.cancelled⟩
  | running => exact ⟨_, hlife [.completed id .zero false] Trials.completed⟩
  | completed => exact ⟨[], (List.append_nil events).symm ▸ hlife⟩
  | failed => exact ⟨[], (List.append_nil events).symm ▸ hlife⟩
  | cancelled => exact ⟨[], (List.append_nil events).symm ▸ hlife⟩

theorem status_eq (h : Told graceElapsed id status n events) :
    events.getLast?.bind Event.status? = some status := by
  cases h with
  | queued => rfl
  | answered => rfl
  | started _ => rw [List.getLast?_concat]; rfl
  | cancelled _ => rw [List.getLast?_concat]; rfl
  | completed _ => rw [List.getLast?_concat]; rfl
  | retrying _ => rw [List.getLast?_concat]; rfl
  | failed _ => rw [List.getLast?_concat]; rfl
  | givenUp _ _ => rw [List.getLast?_concat]; rfl

theorem ne_nil (h : Told graceElapsed id status n events) : events ≠ [] := by
  rintro rfl
  exact nomatch h.status_eq

theorem retries_eq (h : Told graceElapsed id status n events) :
    n = events.countP Event.isRetrying := by
  induction h with
  | queued => rfl
  | answered => rfl
  | started _ ih => rw [List.countP_append, ← ih]; rfl
  | cancelled _ ih => rw [List.countP_append, ← ih]; rfl
  | completed _ ih => rw [List.countP_append, ← ih]; rfl
  | retrying _ ih => rw [List.countP_append, ← ih]; rfl
  | failed _ ih => rw [List.countP_append, ← ih]; rfl
  | givenUp _ _ ih => rw [List.countP_append, ← ih]; rfl

theorem not_isFinal (h : Told graceElapsed id status n events)
    (hstatus : status.isTerminal = false) : forall e, e ∈ events -> e.isFinal = false := by
  induction h with
  | queued => exact fun e he => List.mem_singleton.mp he ▸ rfl
  | started _ ih =>
      intro e he
      cases List.mem_append.mp he with
      | inl he => exact ih rfl e he
      | inr he => exact List.mem_singleton.mp he ▸ rfl
  | retrying _ ih =>
      intro e he
      cases List.mem_append.mp he with
      | inl he => exact ih rfl e he
      | inr he => exact List.mem_singleton.mp he ▸ rfl
  | answered => exact nomatch hstatus
  | cancelled _ _ => exact nomatch hstatus
  | completed _ _ => exact nomatch hstatus
  | failed _ _ => exact nomatch hstatus
  | givenUp _ _ _ => exact nomatch hstatus

/-- Nothing is told of a task after something final. -/
theorem not_isFinal_of_mem_dropLast (h : Told graceElapsed id status n events) :
    forall e, e ∈ events.dropLast -> e.isFinal = false := by
  cases h with
  | queued => exact fun _ he => nomatch he
  | answered => exact fun e he => List.mem_singleton.mp he ▸ rfl
  | started h => rw [List.dropLast_concat]; exact h.not_isFinal rfl
  | cancelled h => rw [List.dropLast_concat]; exact h.not_isFinal rfl
  | completed h => rw [List.dropLast_concat]; exact h.not_isFinal rfl
  | retrying h => rw [List.dropLast_concat]; exact h.not_isFinal rfl
  | failed h => rw [List.dropLast_concat]; exact h.not_isFinal rfl
  | givenUp _ h => rw [List.dropLast_concat]; exact h.not_isFinal rfl

end Told
end Scheduler
end CodeSurvey
