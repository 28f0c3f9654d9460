import CodeSurvey.Proofs.Scheduler.Finality

/-!
# Work

There is work while a task waits or runs.  Submitting, starting and control leave it as it
is, except that a task that is submitted brings some; and all that they tell is about
single tasks.
-/

namespace CodeSurvey
namespace Scheduler

namespace Event

/-- A worker slot became free and nothing waits. -/
def isIdle : Event -> Bool
  | .idle _ => true
  | _ => false

/-- All of it is about single tasks. -/
def OfTasks (told : List Event) : Prop :=
  forall e, e ∈ told -> e.task?.isSome = true

theorem OfTasks.nil : OfTasks [] :=
  fun _ he => nomatch he

theorem OfTasks.append {told more : List Event} (h : OfTasks told) (hmore : OfTasks more) :
    OfTasks (told ++ more) := by
  intro e he
  cases List.mem_append.mp he with
  | inl he => exact h e he
  | inr he => exact hmore e he

theorem OfTasks.singleton {e : Event} (he : e.task?.isSome = true) : OfTasks [e] :=
  fun _ hx => List.mem_singleton.mp hx ▸ he

theorem OfTasks.drained_not_mem {told : List Event} (h : OfTasks told) : .drained ∉ told :=
  fun hmem => Bool.false_ne_true (h .drained hmem)

theorem OfTasks.filter_isIdle {told : List Event} (h : OfTasks told) :
    told.filter isIdle = [] := by
  apply List.filter_eq_nil_iff.mpr
  intro e he
  have htask := h e he
  cases e with
  | idle active => exact fun _ => Bool.false_ne_true htask
  | _ => exact Bool.false_ne_true

end Event

open Event (OfTasks)

/-- Tasks may come to their end by such an action. -/
def Action.endsTasks : Action p i o -> Bool
  | .cancel _ | .cancelAll | .finish _ _ _ => true
  | _ => false

namespace State

variable {s t u : State p i o} {c : Coding i o} {now : Int} {told : List Event}

def Busy (s : State p i o) : Prop :=
  exists r, r ∈ s.records ∧ (r.task.status = .pending ∨ r.task.status = .running)

theorem Consistent.busy_of_queue (h : s.Consistent) (hqueue : s.queue ≠ []) : s.Busy := by
  rcases List.exists_mem_of_ne_nil _ hqueue with ⟨w, hw⟩
  rcases h.mem_queue.mp hw with ⟨r, hr, hstatus, _⟩
  exact ⟨r, hr, Or.inl hstatus⟩

theorem Consistent.busy_iff (h : s.Consistent) : s.Busy ↔ s.isDrained = false := by
  rw [← Bool.not_eq_true, h.isDrained_iff]
  constructor
  · rintro ⟨r, hr, hstatus⟩ ⟨hqueue, hflights⟩
    have hterminal := h.isTerminal hqueue hflights hr
    cases hstatus with
    | inl hpending => exact Status.ne_pending_of_isTerminal hterminal hpending
    | inr hrunning => exact Status.ne_running_of_isTerminal hterminal hrunning
  · intro hload
    by_cases hqueue : s.queue = []
    · have hflights : s.inFlight ≠ [] := fun hnil => hload ⟨hqueue, hnil⟩
      rcases List.exists_mem_of_ne_nil _ hflights with ⟨a, ha⟩
      rcases h.exists_running ha with ⟨r, _, hr, _, hstatus⟩
      exact ⟨r, hr, Or.inr hstatus⟩
    · exact h.busy_of_queue hqueue

theorem Busy.congr (h : s.Busy) (hrecords : t.records = s.records) : t.Busy := by
  rcases h with ⟨r, hr, hstatus⟩
  exact ⟨r, hrecords ▸ hr, hstatus⟩

/-- Only tasks are told of, and the work goes on. -/
structure Proceeds (s t : State p i o) (told : List Event) : Prop where
  events : t.events = s.events ++ told
  tasks : OfTasks told
  busy : s.Busy -> t.Busy
  roused : t.Busy -> s.Busy ∨ exists id priority, .queued id priority ∈ told

theorem Proceeds.still (hevents : t.events = s.events) (hbusy : t.Busy ↔ s.Busy) :
    Proceeds s t [] where
  events := hevents.trans (List.append_nil s.events).symm
  tasks := OfTasks.nil
  busy := hbusy.mpr
  roused := fun ht => Or.inl (hbusy.mp ht)

theorem Proceeds.refl (s : State p i o) : Proceeds s s [] :=
  Proceeds.still rfl Iff.rfl

theorem Proceeds.trans {more : List Event} (h : Proceeds s t told) (h' : Proceeds t u more) :
    Proceeds s u (told ++ more) where
  events := by
    rw [h'.events, h.events, List.append_assoc]
  tasks := h.tasks.append h'.tasks
  busy := fun hs => h'.busy (h.busy hs)
  roused := by
    intro hu
    cases h'.roused hu with
    | inl ht =>
        cases h.roused ht with
        | inl hs => exact Or.inl hs
        | inr hqueued =>
            rcases hqueued with ⟨id, priority, hmem⟩
            exact Or.inr ⟨id, priority, List.mem_append_left _ hmem⟩
    | inr hqueued =>
        rcases hqueued with ⟨id, priority, hmem⟩
        exact Or.inr ⟨id, priority, List.mem_append_right _ hmem⟩

/-!
# Submitting
-/

theorem Busy.addRecord (h : s.Busy) (r : Record i o) : (s.addRecord r).Busy := by
  rcases h with ⟨q, hq, hstatus⟩
  exact ⟨q, List.mem_append_left _ hq, hstatus⟩

theorem exists_proceeds_accept (s : State p i o) (now : Int) (input : i) (priority : Int)
    (key : Option String) (cached : Option o) :
    exists told, Proceeds s (s.accept now input priority key cached).1 told := by
  have hqueued : OfTasks [.queued s.ids.next.1 priority] := OfTasks.singleton rfl
  cases cached with
  | none =>
      refine ⟨[.queued s.ids.next.1 priority], ?_⟩
      constructor
      case events => rfl
      case tasks => exact hqueued
      case busy => exact fun hs => (hs.addRecord _).congr rfl
      case roused => exact fun _ => Or.inr ⟨_, _, List.mem_cons_self⟩
  | some value =>
      refine ⟨[.queued s.ids.next.1 priority] ++ [.completed s.ids.next.1 .zero true], ?_⟩
      constructor
      case events => exact List.append_assoc _ _ _
      case tasks => exact hqueued.append (OfTasks.singleton rfl)
      case busy => exact fun hs => (hs.addRecord _).congr rfl
      case roused => exact fun _ => Or.inr ⟨_, _, List.mem_cons_self⟩

theorem exists_proceeds_submit (c : Coding i o) (s : State p i o) (now : Int) (input : i)
    (priority : Int) : exists told, Proceeds s (s.submit c now input priority).state told := by
  rcases exists_submit_eq c s now input priority with
    ⟨cache, ⟨_, _, _, hstate⟩ | ⟨_, _, _, hstate⟩⟩
  · rw [hstate]
    exact ⟨[], Proceeds.still rfl Iff.rfl⟩
  · have hlooked : Proceeds s { s with cache } [] := Proceeds.still rfl Iff.rfl
    rcases exists_proceeds_accept { s with cache } now input priority (s.cacheKey c input)
      (s.lookUp now (s.cacheKey c input)).result with ⟨told, haccepted⟩
    rw [hstate]
    exact ⟨told, hlooked.trans haccepted⟩

/-!
# Starting
-/

theorem mem_of_pending? {id : TaskId} {r : Record i o} (h : s.pending? id = some r) :
    r ∈ s.records ∧ r.task.status = .pending := by
  rcases record?_of_pending? h with ⟨hrecord, hstatus⟩
  exact ⟨List.mem_of_find?_eq_some hrecord, hstatus⟩

theorem proceeds_startTask {r : Record i o} (hr : r ∈ s.records)
    (hstatus : r.task.status = .pending) (now : Int) (processor : p) :
    Proceeds s (s.startTask now processor r.task).1
      [.started r.task.id (r.task.retries + 1)] where
  events := rfl
  tasks := OfTasks.singleton rfl
  busy := by
    intro _
    refine ⟨{ r with task := started r.task now }, ?_, Or.inr rfl⟩
    exact Index.mem_update (f := (started · now)).mpr ⟨r, hr, (if_pos rfl).symm⟩
  roused := fun _ => Or.inl ⟨r, hr, Or.inl hstatus⟩

theorem exists_proceeds_startFrom (processor : p) (q : Queue) (s : State p i o) :
    exists told, Proceeds s (startFrom now processor q s).1 told := by
  induction q generalizing s with
  | nil => exact ⟨[], Proceeds.still rfl Iff.rfl⟩
  | cons next rest ih =>
      unfold startFrom
      split
      · split
        next r hpending =>
          rcases mem_of_pending? hpending with ⟨hr, hstatus⟩
          rcases ih (s.startTask now processor r.task).1 with ⟨told, hrest⟩
          exact ⟨_, (proceeds_startTask hr hstatus now processor).trans hrest⟩
        next => exact ih s
      · exact ⟨[], Proceeds.still rfl Iff.rfl⟩

theorem exists_proceeds_dispatch (s : State p i o) (now : Int) :
    exists told, Proceeds s (s.dispatch now).1 told := by
  unfold State.dispatch
  split
  · exact exists_proceeds_startFrom _ _ s
  · exact ⟨[], Proceeds.refl s⟩

/-!
# Actions
-/

theorem busy_clearFinished (s : State p i o) : s.clearFinished.state.Busy ↔ s.Busy := by
  constructor
  · rintro ⟨r, hr, hstatus⟩
    exact ⟨r, (List.mem_filter.mp hr).1, hstatus⟩
  · rintro ⟨r, hr, hstatus⟩
    refine ⟨r, List.mem_filter.mpr ⟨hr, ?_⟩, hstatus⟩
    cases hstatus with
    | inl hpending => simp [hpending, Status.isTerminal]
    | inr hrunning => simp [hrunning, Status.isTerminal]

theorem exists_proceeds_act (s : State p i o) {m : Moment p i o} (hm : m.action.endsTasks = false)
    (hdeliver : m.action ≠ .deliver) : exists told, Proceeds s (s.act c m) told := by
  rcases m with ⟨now, action⟩
  cases action with
  | submit input priority => exact exists_proceeds_submit c s now input priority
  | clearFinished => exact ⟨[], Proceeds.still rfl (busy_clearFinished s)⟩
  | beginShutdown =>
      have hact : s.act c ⟨now, .beginShutdown⟩ = _ := s.beginShutdown_eq
      rw [hact]
      exact ⟨[], Proceeds.still rfl Iff.rfl⟩
  | dispatch => exact exists_proceeds_dispatch s now
  | deliver => exact absurd rfl hdeliver
  | cancel id => cases hm
  | cancelAll => cases hm
  | finish place found elapsed => cases hm
  | store place =>
      rcases exists_act_store_eq c s now place with ⟨_, _, hact⟩
      rw [hact]
      exact ⟨[], Proceeds.still rfl Iff.rfl⟩
  | _ => exact ⟨[], Proceeds.still rfl Iff.rfl⟩

end State
end Scheduler
end CodeSurvey
