import CodeSurvey.Proofs.Scheduler.Chronicle
import CodeSurvey.Proofs.Scheduler.Consistency

/-!
# The scheduler tells what happens

The course of a run keeps what the run itself forgets: the events that were delivered and
the number of tasks that were cleared.  At every point of it the log of all events is the
chronicle of the index and of the counters.
-/

namespace CodeSurvey
namespace Scheduler

structure Course (p i o : Type) where
  state : State p i o
  /-- The events that the observers were told of. -/
  delivered : List Event
  /-- How many tasks were cleared. -/
  cleared : Nat
  graceElapsed : Bool

namespace State

variable {s : State p i o} {c : Coding i o} {now : Int} {graceElapsed : Prop}
  {cleared : Nat} {delivered : List Event}

/-- The events that were delivered and those that are still to be delivered are the
chronicle of the state. -/
def Chronicled (graceElapsed : Prop) (cleared : Nat) (delivered : List Event)
    (s : State p i o) : Prop :=
  Chronicle graceElapsed s.ids s.retriesClosed s.records s.retries s.cacheHits cleared
    (delivered ++ s.events)

theorem Chronicled.move (h : s.Chronicled graceElapsed cleared delivered) {r : Record i o}
    (hr : r ∈ s.records) {status : Status} (hstatus : r.task.status = status)
    {f : Task i o -> Task i o} (hid : forall t, (f t).id = t.id) {e : Event}
    (he : e.task? = some r.task.id) (hqueued : e.isQueued = false)
    (htold : forall events, Told graceElapsed r.task.id status r.task.retries events ->
      Told graceElapsed r.task.id (f r.task).status (f r.task).retries (events ++ [e])) :
    Chronicle graceElapsed s.ids s.retriesClosed (Index.update s.records r.task.id f)
      (s.retries + [e].countP Event.isRetrying) (s.cacheHits + [e].countP Event.isHit)
      cleared (delivered ++ (s.events ++ [e])) := by
  rw [← List.append_assoc]
  exact Chronicle.move h hr hid he hqueued fun events hevents => htold events (hstatus ▸ hevents)

theorem Chronicled.tell (h : s.Chronicled graceElapsed cleared delivered) {e : Event}
    (he : e.task? = none) : (s.emit e).Chronicled graceElapsed cleared delivered := by
  unfold Chronicled emit
  rw [← List.append_assoc]
  exact Chronicle.tell h he

/-!
# Submitting
-/

theorem Chronicled.lookUp (h : s.Chronicled graceElapsed cleared delivered) (now : Int)
    (key : Option String) :
    (s.lookUp now key).state.Chronicled graceElapsed cleared delivered := by
  cases key with
  | none => exact h
  | some key => exact h

theorem Chronicled.accept (h : s.Chronicled graceElapsed cleared delivered)
    (hs : s.Consistent) (input : i) (priority : Int) (key : Option String)
    (cached : Option o) :
    (s.accept now input priority key cached).1.Chronicled graceElapsed cleared
      delivered := by
  have hnew := Books.next_not_mem hs
  unfold Chronicled
  cases cached with
  | none =>
      have hevents : delivered ++ (s.accept now input priority key none).1.events =
          delivered ++ s.events ++ [.queued s.ids.next.1 priority] :=
        (List.append_assoc _ _ _).symm
      rw [hevents]
      exact Chronicle.add h hs.injective hnew
        (r := ⟨Task.new s.ids.next.1 input priority now, s.nextNumber, key⟩) rfl
        [.queued s.ids.next.1 priority] (fun e he => List.mem_singleton.mp he ▸ rfl)
        Told.queued rfl
  | some value =>
      have hevents : delivered ++ (s.accept now input priority key (some value)).1.events =
          delivered ++ s.events ++
            [.queued s.ids.next.1 priority, .completed s.ids.next.1 .zero true] := by
        show delivered ++ (s.events ++ [_] ++ [_]) = _
        rw [List.append_assoc s.events, ← List.append_assoc]
        rfl
      have hall : forall e, e ∈ [Event.queued s.ids.next.1 priority,
          .completed s.ids.next.1 .zero true] -> e.task? = some s.ids.next.1 := by
        intro e he
        cases List.mem_cons.mp he with
        | inl he => exact he ▸ rfl
        | inr he => exact List.mem_singleton.mp he ▸ rfl
      rw [hevents]
      exact Chronicle.add h hs.injective hnew
        (r := ⟨answered (Task.new s.ids.next.1 input priority now) value now,
          s.nextNumber, key⟩) rfl _ hall Told.answered rfl

theorem Chronicled.submit (h : s.Chronicled graceElapsed cleared delivered)
    (hs : s.Consistent) (input : i) (priority : Int) :
    (s.submit c now input priority).state.Chronicled graceElapsed cleared delivered := by
  have hfound := h.lookUp now (s.cacheKey c input)
  have hsfound := hs.lookUp now (s.cacheKey c input)
  unfold State.submit
  split
  · exact h
  · simp only
    split
    · exact hfound
    · exact hfound.accept hsfound _ _ _ _

/-!
# Starting
-/

theorem Chronicled.startTask (h : s.Chronicled graceElapsed cleared delivered)
    {r : Record i o} (hr : r ∈ s.records) (hstatus : r.task.status = .pending)
    (processor : p) :
    (s.startTask now processor r.task).1.Chronicled graceElapsed cleared delivered := by
  exact h.move hr hstatus (f := (started · now))
    (e := .started r.task.id (r.task.retries + 1)) (fun _ => rfl) rfl rfl
    fun _ => Told.started

theorem Chronicled.startFrom (processor : p) (q : Queue) {s : State p i o}
    (h : s.Chronicled graceElapsed cleared delivered) :
    (startFrom now processor q s).1.Chronicled graceElapsed cleared delivered := by
  induction q generalizing s with
  | nil => exact h
  | cons next rest ih =>
      unfold State.startFrom
      split
      · split
        next r hpending =>
          rcases (pending?_eq_some h.ids_nodup).mp hpending with ⟨hr, _, hstatus⟩
          exact ih (h.startTask hr hstatus processor)
        next => exact ih h
      · exact h

theorem Chronicled.dispatch (h : s.Chronicled graceElapsed cleared delivered) :
    (s.dispatch now).1.Chronicled graceElapsed cleared delivered := by
  unfold State.dispatch
  split
  next processor _ => exact h.startFrom processor s.queue
  next => exact h

/-!
# Cancelling
-/

theorem Chronicled.markCancelled (h : s.Chronicled graceElapsed cleared delivered)
    (now : Int) (id : TaskId) :
    (s.markCancelled now id).1.Chronicled graceElapsed cleared delivered := by
  unfold State.markCancelled
  split
  next r hpending =>
    rcases (pending?_eq_some h.ids_nodup).mp hpending with ⟨hr, rfl, hstatus⟩
    exact h.move hr hstatus (f := (cancelled · now)) (e := .cancelled r.task.id)
      (fun _ => rfl) rfl rfl fun _ => Told.cancelled
  next => exact h

theorem Chronicled.markAllCancelled (ids : List TaskId) {s : State p i o}
    (h : s.Chronicled graceElapsed cleared delivered) :
    (s.markAllCancelled now ids).1.Chronicled graceElapsed cleared delivered := by
  rw [fst_markAllCancelled]
  induction ids generalizing s with
  | nil => exact h
  | cons id ids ih => exact ih (h.markCancelled now id)

theorem Chronicled.emitDrained (h : s.Chronicled graceElapsed cleared delivered) :
    s.emitDrained.Chronicled graceElapsed cleared delivered := by
  unfold State.emitDrained
  split
  · exact h.tell rfl
  · exact h

theorem Chronicled.cancel (h : s.Chronicled graceElapsed cleared delivered)
    (id : TaskId) : (s.cancel now id).state.Chronicled graceElapsed cleared delivered := by
  have hmarked := h.markCancelled now id
  unfold State.cancel
  split
  next marked hmark =>
    rw [hmark] at hmarked
    exact Chronicled.emitDrained hmarked
  next marked hmark =>
    rw [hmark] at hmarked
    exact hmarked

theorem Chronicled.cancelAll (h : s.Chronicled graceElapsed cleared delivered) :
    (s.cancelAll now).state.Chronicled graceElapsed cleared delivered := by
  have hmarked : (State.markAllCancelled { s with queue := [] } now
      (s.queue.map Waiting.id)).1.Chronicled graceElapsed cleared delivered :=
    Chronicled.markAllCancelled _ h
  unfold State.cancelAll
  simp only
  split
  · exact hmarked
  · exact hmarked.emitDrained

/-!
# Ending
-/

theorem Chronicled.emitIdle (h : s.Chronicled graceElapsed cleared delivered) :
    s.emitIdle.Chronicled graceElapsed cleared delivered := by
  have hidle : (s.emit (.idle s.active)).Chronicled graceElapsed cleared delivered :=
    h.tell rfl
  unfold State.emitIdle
  split
  · simp only
    split
    · exact hidle.tell rfl
    · exact hidle
  · exact h

theorem Chronicled.conclude (h : s.Chronicled graceElapsed cleared delivered) (now : Int)
    {r : Record i o} (hr : r ∈ s.records) (hstatus : r.task.status = .running)
    (outcome : Except Failure o) (elapsed : Time.Span) :
    (s.conclude now r outcome elapsed).1.Chronicled graceElapsed cleared delivered := by
  unfold State.conclude
  split
  next value =>
    exact h.move hr hstatus (f := (succeeded · value now))
      (e := .completed r.task.id elapsed false) (fun _ => rfl) rfl rfl
      fun _ => Told.completed
  next error =>
    split
    · split
      next hclosed =>
        exact h.move hr hstatus (f := (givenUp · now)) (e := .cancelled r.task.id)
          (fun _ => rfl) rfl rfl fun _ => Told.givenUp (h.grace hclosed)
      next =>
        exact h.move hr hstatus (f := (retried · error))
          (e := .retrying r.task.id (r.task.retries + 1) error.message) (fun _ => rfl) rfl
          rfl fun _ => Told.retrying
    · exact h.move hr hstatus (f := (failed · error now))
        (e := .failed r.task.id r.task.retries error.message) (fun _ => rfl) rfl rfl
        fun _ => Told.failed

theorem Chronicled.finish (h : s.Chronicled graceElapsed cleared delivered)
    (hs : s.Consistent) {a : Attempt p i} (ha : a ∈ s.inFlight)
    (outcome : Except Failure o) (elapsed : Time.Span) :
    (s.finish now a.id outcome elapsed).state.Chronicled graceElapsed cleared
      delivered := by
  rcases hs.exists_running ha with ⟨r, hrecord, hr, _, hstatus⟩
  have hreleased : (s.release a.id).record? a.id = some r := hrecord
  have hconcluded : ((s.release a.id).conclude now r outcome elapsed).1.Chronicled
      graceElapsed cleared delivered :=
    Chronicled.conclude (s := s.release a.id) h now hr hstatus outcome elapsed
  unfold State.finish
  simp only
  rw [hreleased]
  exact hconcluded.emitIdle

theorem Chronicled.store (h : s.Chronicled graceElapsed cleared delivered) (place : Nat) :
    (s.store c now place).state.Chronicled graceElapsed cleared delivered := by
  unfold State.store
  split
  · exact h
  · exact h

theorem Chronicled.beginShutdown (h : s.Chronicled graceElapsed cleared delivered) :
    s.beginShutdown.state.Chronicled graceElapsed cleared delivered := by
  unfold State.beginShutdown
  split
  · exact h
  · exact h

end State

/-!
# Courses
-/

namespace Course

variable {c : Coding i o} {x : Course p i o}

def start (s : State p i o) : Course p i o :=
  { state := s, delivered := [], cleared := 0, graceElapsed := false }

/-- All events so far, in the order in which they happened. -/
def log (x : Course p i o) : List Event :=
  x.delivered ++ x.state.events

def act (c : Coding i o) (x : Course p i o) (m : Moment p i o) : Course p i o :=
  let x' := { x with state := x.state.act c m }
  match m.action with
  | .deliver => { x' with delivered := x.log }
  | .clearFinished => { x' with cleared := x.cleared + x.state.clearFinished.result }
  | .closeRetries => { x' with graceElapsed := true }
  | _ => x'

def run (c : Coding i o) (x : Course p i o) (ms : List (Moment p i o)) : Course p i o :=
  ms.foldl (act c) x

theorem state_act (c : Coding i o) (x : Course p i o) (m : Moment p i o) :
    (x.act c m).state = x.state.act c m := by
  unfold act
  simp only
  split <;> rfl

/-- The course of a run is that of its states. -/
theorem state_run (c : Coding i o) (x : Course p i o) (ms : List (Moment p i o)) :
    (x.run c ms).state = x.state.run c ms :=
  (List.foldl_hom state fun x m => (state_act c x m).symm).symm

def Sound (x : Course p i o) : Prop :=
  x.state.Consistent ∧
    x.state.Chronicled (x.graceElapsed = true) x.cleared x.delivered

theorem Sound.act (h : x.Sound) (m : Moment p i o) : (x.act c m).Sound := by
  rcases h with ⟨hs, h⟩
  constructor
  · rw [state_act]
    exact hs.act m
  · rcases m with ⟨now, action⟩
    cases action with
    | submit input priority => exact h.submit hs input priority
    | cancel id => exact h.cancel id
    | cancelAll => exact h.cancelAll
    | pause => exact h
    | resume => exact h
    | configure options => exact h
    | setProcessor processor => exact h
    | clearFinished => exact Chronicle.clear h _
    | clearCache => exact h
    | beginShutdown => exact h.beginShutdown
    | closeRetries => exact Chronicle.mono h (fun _ => rfl) (fun _ => rfl)
    | dispatch => exact h.dispatch
    | finish place found elapsed =>
        show (State.act c x.state ⟨now, .finish place found elapsed⟩).Chronicled _ _ _
        unfold State.act
        simp only
        split
        next a ha => exact h.finish hs (List.mem_of_getElem? ha) (a.outcome found) elapsed
        next => exact h
    | store place => exact h.store place
    | deliver =>
        show Chronicle _ _ _ _ _ _ _ (x.delivered ++ x.state.events ++ [])
        rw [List.append_nil]
        exact h

theorem Sound.run (h : x.Sound) (ms : List (Moment p i o)) : (x.run c ms).Sound := by
  induction ms generalizing x with
  | nil => exact h
  | cons m ms ih => exact ih (h.act m)

theorem sound_start (options : Options) (cacheOptions : Cache.Options) {ids : IdSource}
    (hids : Function.Injective ids.nth) :
    (start (State.new options cacheOptions ids).state : Course p i o).Sound :=
  ⟨State.consistent_new options cacheOptions hids, Chronicle.empty _ ids⟩

/-- Whatever happens to a new scheduler, in whatever order: what was told of a task is the
beginning of a life, with nothing behind its end, and the index and the counters are what
was told.  This holds of every beginning of a run too, so a task that was started is only
cancelled when the grace has elapsed before. -/
theorem life_run (c : Coding i o) (options : Options) (cacheOptions : Cache.Options)
    {ids : IdSource} (hids : Function.Injective ids.nth) (ms : List (Moment p i o)) :
    let x := (start (State.new options cacheOptions ids).state).run c ms
    (forall id, exists life, Life (x.graceElapsed = true) id life ∧
        Event.about id x.log <+: life) ∧
      (forall id e, e ∈ (Event.about id x.log).dropLast -> e.isFinal = false) ∧
      (forall id t, x.state.task? id = some t ->
        (Event.about id x.log).getLast?.bind Event.status? = some t.status ∧
          t.retries = (Event.about id x.log).countP Event.isRetrying) ∧
      x.state.stats.retries = x.log.countP Event.isRetrying ∧
      x.state.stats.cacheHits = x.log.countP Event.isHit ∧
      x.state.stats.total + x.cleared = x.log.countP Event.isQueued := by
  intro x
  have h : x.Sound := (sound_start options cacheOptions hids).run ms
  refine ⟨?_, ?_, ?_, h.2.retries_eq, h.2.hits_eq, h.2.total_eq⟩
  · intro id
    cases h.2.told id with
    | inl hnil =>
        have hpre : Event.about id x.log <+: [.queued id 0, .completed id .zero true] := by
          rw [show Event.about id x.log = [] from hnil]
          exact List.nil_prefix
        exact ⟨_, Life.answered, hpre⟩
    | inr htold =>
        rcases htold with ⟨status, n, htold⟩
        rcases htold.exists_life with ⟨rest, hlife⟩
        exact ⟨_, hlife, List.prefix_append _ rest⟩
  · intro id e he
    cases h.2.told id with
    | inl hnil =>
        rw [show Event.about id x.log = [] from hnil] at he
        exact nomatch he
    | inr htold =>
        rcases htold with ⟨status, n, htold⟩
        exact htold.not_isFinal_of_mem_dropLast e he
  · intro id t ht
    rcases Option.map_eq_some_iff.mp ht with ⟨r, hrecord, rfl⟩
    rcases (State.record?_eq_some h.2.ids_nodup).mp hrecord with ⟨hr, rfl⟩
    have htold := h.2.indexed r hr
    exact ⟨htold.status_eq, htold.retries_eq⟩

/-- A task that is tried twice, the second time until after the grace of a shutdown. -/
theorem life_given_up :
    let c : Coding String String := { input := fun _ => none, output := .text }
    let ms : List (Moment Unit String String) :=
      [⟨0, .setProcessor ()⟩, ⟨1, .submit "a" 0⟩, ⟨1, .dispatch⟩,
        ⟨2, .finish 0 (.error (.execution "no")) .zero⟩, ⟨2, .dispatch⟩, ⟨3, .deliver⟩,
        ⟨4, .beginShutdown⟩, ⟨5, .closeRetries⟩,
        ⟨6, .finish 0 (.error (.execution "no")) .zero⟩]
    let x := (start (State.new (.forWorkers 1) .default (.sequential "task")).state).run c ms
    let id : TaskId := ⟨"task-1"⟩
    (exists life, Life (x.graceElapsed = true) id life ∧ Event.about id x.log <+: life) ∧
      Event.about id x.log =
        [.queued id 0, .started id 1, .retrying id 1 "task execution failed: no",
          .started id 2, .cancelled id] :=
  ⟨(life_run _ _ _ (State.injective_sequential "task") _).1 _, by decide +kernel⟩

end Course
end Scheduler
end CodeSurvey
