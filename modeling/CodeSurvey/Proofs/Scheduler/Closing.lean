import CodeSurvey.Proofs.Scheduler.Controls
import CodeSurvey.Proofs.Scheduler.CourseLog

/-!
# Closing a scheduler

Once a shutdown has begun, submissions are refused for good.  Once its grace has elapsed
and what waited was cancelled, no attempt is started or asked for any more, so that every
attempt still in flight is the last one at its task.
-/

namespace CodeSurvey
namespace Scheduler

open Event (Quiet quiet_concat)

namespace State

variable {s : State p i o} {c : Coding i o}

/-!
# The last attempt at a task
-/

theorem exists_conclude_eq (hclosed : s.retriesClosed = true) (now : Int) (r : Record i o)
    (outcome : Except Failure o) (elapsed : Time.Span) :
    exists (f : Task i o -> Task i o) (events : List Event) (completedRuns : Nat)
      (averageSeconds : Float),
      (s.conclude now r outcome elapsed).1 =
          { s.updateTask r.task.id f with events, completedRuns, averageSeconds } ∧
        (forall t, (f t).id = t.id) ∧ (forall t, (f t).status.isTerminal = true) ∧
        Quiet s.events events := by
  unfold conclude
  split
  next value =>
    exact ⟨(succeeded · value now), _, _, _, rfl, fun _ => rfl, fun _ => rfl,
      quiet_concat s.events rfl⟩
  next error =>
    rw [if_pos hclosed]
    split
    · exact ⟨(givenUp · now), _, _, _, rfl, fun _ => rfl, fun _ => rfl,
        quiet_concat s.events rfl⟩
    · exact ⟨(failed · error now), _, _, _, rfl, fun _ => rfl, fun _ => rfl,
        quiet_concat s.events rfl⟩

theorem id_of_record? {id : TaskId} {r : Record i o} (h : s.record? id = some r) :
    r.task.id = id := by
  have hfound := List.find?_some h
  exact of_decide_eq_true hfound

theorem record?_of_pending? {id : TaskId} {r : Record i o} (h : s.pending? id = some r) :
    s.record? id = some r ∧ r.task.status = .pending := by
  rcases Option.filter_eq_some_iff.mp h with ⟨hrecord, hstatus⟩
  exact ⟨hrecord, of_decide_eq_true hstatus⟩

theorem map_record?_updateTask (s : State p i o) (id other : TaskId)
    {f : Task i o -> Task i o} (hf : forall t, (f t).id = t.id) :
    (s.updateTask id f).record? other =
      (s.record? other).map fun r => if other = id then { r with task := f r.task } else r := by
  unfold updateTask
  show List.find? _ (List.map _ _) = _
  rw [List.find?_map]
  have hsame : (fun q : Record i o => decide (q.task.id = other)) ∘
      (fun q : Record i o => if q.task.id = id then { q with task := f q.task } else q) =
      fun q => decide (q.task.id = other) := by
    funext q
    simp only [Function.comp_apply]
    split
    next heq => simp only [hf]
    next hne => rfl
  rw [hsame]
  apply Option.map_congr
  intro r hr
  rw [id_of_record? hr]

theorem record?_updateTask {id : TaskId} {r : Record i o} (hr : s.record? id = some r)
    {f : Task i o -> Task i o} (hf : forall t, (f t).id = t.id) :
    (s.updateTask id f).record? id = some { r with task := f r.task } := by
  rw [map_record?_updateTask s id id hf, hr]
  exact congrArg some (if_pos rfl)

/-- What the end of an attempt does when nothing is tried again. -/
structure Finishes (s : State p i o) (id : TaskId) (t : State p i o) : Prop where
  load : t.load = (s.release id).load
  quiet : Quiet s.events t.events
  ended : exists task, t.task? id = some task ∧ task.status.isTerminal = true

theorem Consistent.finishes (h : s.Consistent) (hclosed : s.retriesClosed = true)
    {a : Attempt p i} (ha : a ∈ s.inFlight) (now : Int) (outcome : Except Failure o)
    (elapsed : Time.Span) :
    s.Finishes a.id (s.finish now a.id outcome elapsed).state := by
  rcases h.exists_finished_eq ha now outcome elapsed with
    ⟨r, hrecord, _, hid, _, hfinished⟩
  have hreleased : (s.release a.id).record? a.id = some r := hrecord
  rcases exists_conclude_eq (s := s.release a.id) hclosed now r outcome elapsed with
    ⟨f, events, completedRuns, averageSeconds, hconclude, hf, hterminal, hquiet⟩
  rcases exists_emitIdle_eq ((s.release a.id).conclude now r outcome elapsed).1 with
    ⟨events', hidle, hquiet'⟩
  have hupdated := record?_updateTask hreleased hf
  rw [hfinished, hidle]
  rw [hconclude] at hquiet' ⊢
  constructor
  case load => rfl
  case quiet => exact hquiet.trans hquiet'
  case ended =>
    rw [← hid] at hupdated ⊢
    exact ⟨f r.task, congrArg (Option.map Record.task) hupdated, hterminal r.task⟩

/-!
# Winding down
-/

/-- Nothing waits, nothing more is taken in, and what runs is not tried again. -/
structure Closed (s : State p i o) : Prop where
  shuttingDown : s.shuttingDown = true
  retriesClosed : s.inFlight ≠ [] -> s.retriesClosed = true
  queue : s.queue = []

theorem refusal?_eq (h : s.shuttingDown = true) : s.refusal? = some .shuttingDown := by
  unfold refusal?
  rw [if_pos h]

theorem Closed.barred (h : s.Closed) : s.Barred :=
  ⟨h.queue, Option.isSome_iff_exists.mpr ⟨_, refusal?_eq h.shuttingDown⟩⟩

/-- What an action leaves waiting and in flight, and what of it has to be told. -/
theorem Closed.act_spec (h : s.Closed) (hs : s.Consistent) (m : Moment p i o) :
    (s.act c m).queue = [] ∧ (s.act c m).inFlight.Sublist s.inFlight ∧
      (m.action ≠ .deliver -> Quiet s.events (s.act c m).events) := by
  by_cases hfinish : exists place found elapsed, m.action = .finish place found elapsed
  · rcases m with ⟨now, action⟩
    rcases hfinish with ⟨place, found, elapsed, rfl⟩
    unfold State.act
    simp only
    split
    next a hplace =>
      have ha := List.mem_of_getElem? hplace
      have hclosed := h.retriesClosed (List.ne_nil_of_mem ha)
      have hends := hs.finishes hclosed ha now (a.outcome found) elapsed
      have hflights : (s.finish now a.id (a.outcome found) elapsed).state.inFlight = _ :=
        congrArg Load.inFlight hends.load
      refine ⟨(congrArg Load.queue hends.load).trans h.queue, ?_, fun _ => hends.quiet⟩
      rw [hflights]
      exact List.filter_sublist
    next => exact ⟨h.queue, List.Sublist.refl _, fun _ => Quiet.refl s.events⟩
  · have hact := h.barred.act_spec (c := c) fun place found elapsed heq =>
      hfinish ⟨place, found, elapsed, heq⟩
    have hflights : (s.act c m).inFlight = s.inFlight := congrArg Load.inFlight hact.1
    refine ⟨(congrArg Load.queue hact.1).trans h.queue, ?_, hact.2⟩
    rw [hflights]

theorem closed_cancelAll (s : State p i o) (now : Int) (hbegun : s.shuttingDown = true)
    (hclosed : s.retriesClosed = true) : (s.cancelAll now).state.Closed := by
  rcases s.exists_cancelAll_eq now with ⟨records, events, hcancel, _⟩
  rw [hcancel]
  exact ⟨hbegun, fun _ => hclosed, rfl⟩

theorem Closed.act (h : s.Closed) (hs : s.Consistent) (m : Moment p i o) :
    (s.act c m).Closed := by
  rcases h.act_spec (c := c) hs m with ⟨hqueue, hflights, _⟩
  constructor
  case shuttingDown => exact shuttingDown_act c h.shuttingDown m
  case retriesClosed =>
    intro hne
    have hne' : s.inFlight ≠ [] := fun hnil => hne (List.sublist_nil.mp (hnil ▸ hflights))
    exact retriesClosed_act c (h.retriesClosed hne') m
  case queue => exact hqueue

theorem Closed.run (h : s.Closed) (hs : s.Consistent) (ms : List (Moment p i o)) :
    (s.run c ms).Closed ∧ (s.run c ms).inFlight.Sublist s.inFlight := by
  induction ms generalizing s with
  | nil => exact ⟨h, List.Sublist.refl _⟩
  | cons m ms ih =>
      rcases h.act_spec (c := c) hs m with ⟨_, hflights, _⟩
      rcases ih (h.act hs m) (hs.act m) with ⟨hclosed, hrest⟩
      exact ⟨hclosed, hrest.trans hflights⟩

end State

namespace Course

variable {c : Coding i o} {x : Course p i o}

theorem log_act_of_ne {m : Moment p i o} (hm : m.action ≠ .deliver) :
    (x.act c m).log = x.delivered ++ (x.state.act c m).events := by
  rcases m with ⟨now, action⟩
  cases action with
  | deliver => exact absurd rfl hm
  | _ => rfl

theorem quiet_act (h : x.state.Closed) (hs : x.state.Consistent) (m : Moment p i o) :
    Quiet x.log (x.act c m).log := by
  by_cases hm : m.action = .deliver
  · rcases m with ⟨now, action⟩
    cases hm
    exact ⟨[], rfl, fun _ he => nomatch he⟩
  · rcases h.act_spec (c := c) hs m with ⟨_, _, hquiet⟩
    rw [log_act_of_ne hm]
    exact (hquiet hm).append_left x.delivered

theorem quiet_run (h : x.state.Closed) (hs : x.state.Consistent)
    (ms : List (Moment p i o)) : Quiet x.log (x.run c ms).log := by
  induction ms generalizing x with
  | nil => exact Quiet.refl x.log
  | cons m ms ih =>
      have hact := state_act c x m
      have hclosed : (x.act c m).state.Closed := hact ▸ h.act hs m
      have hconsistent : (x.act c m).state.Consistent := hact ▸ hs.act m
      exact (quiet_act h hs m).trans (ih hclosed hconsistent)

end Course

namespace State

variable {s : State p i o} {c : Coding i o}

/-- Submissions are refused and do nothing. -/
def Refuses (c : Coding i o) (s : State p i o) : Prop :=
  forall now input priority,
    s.submit c now input priority = .only s (.error .shuttingDown) []

theorem refuses (h : s.shuttingDown = true) : s.Refuses c :=
  submit_of_refusal? c (refusal?_eq h)

/-- Nothing waits and no attempt is started or asked for, and the attempts that are still
in flight each end their task; whatever happens from now on. -/
structure WoundDown (c : Coding i o) (s : State p i o) : Prop where
  queue : forall later, (s.run c later).queue = []
  inFlight : forall later, (s.run c later).inFlight.Sublist s.inFlight
  quiet : forall later, Quiet s.events ((Course.start s).run c later).log
  ends : forall later a, a ∈ (s.run c later).inFlight -> forall now outcome elapsed,
    exists t, ((s.run c later).finish now a.id outcome elapsed).state.task? a.id = some t ∧
      t.status.isTerminal = true

theorem Closed.woundDown (h : s.Closed) (hs : s.Consistent) : s.WoundDown c where
  queue := fun later => (h.run hs later).1.queue
  inFlight := fun later => (h.run hs later).2
  quiet := Course.quiet_run (x := Course.start s) h hs
  ends := by
    intro later a ha now outcome elapsed
    have hclosed := (h.run (c := c) hs later).1.retriesClosed (List.ne_nil_of_mem ha)
    exact ((hs.run later).finishes hclosed ha now outcome elapsed).ended

end State
end Scheduler
end CodeSurvey
