import CodeSurvey.Proofs.Scheduler.Finality
import CodeSurvey.Proofs.Scheduler.Outcomes

/-!
# The grace of a shutdown

A shutdown may be called again while another one waits.  Each call has a grace of its own,
and the first one whose grace elapses cancels what waits and ends the retries.  Until then
all of them only wait.
-/

namespace CodeSurvey
namespace Scheduler

namespace Action

/-- Whether an action is a part of a shutdown. -/
def shutsDown : Action p i o -> Bool
  | .beginShutdown | .closeRetries => true
  | _ => false

end Action

structure ShutdownCall where
  /-- When its grace elapses. -/
  due : Nat
  stage : Shutdown
deriving DecidableEq, Repr

/-- A scheduler on its own, a timer that counts milliseconds, and the shutdowns that were
called for, the first one first. -/
structure Timed (p i o : Type) where
  host : Alone p i o
  timer : Nat
  calls : List ShutdownCall

namespace Timed

inductive Step (p i o : Type) where
  | pass (millis : Nat)
  /-- Anything that happens to the scheduler and is not a part of a shutdown. -/
  | act (m : Moment p i o) (hother : m.action.shutsDown = false)
  | shutdown (now : Int) (grace : Option Nat)
  /-- A shutdown looks at the scheduler again, and at its timer if it `fires`. -/
  | look (now : Int) (place : Nat) (fires : Bool)

def Step.Cancels (st : Step p i o) (id : TaskId) : Prop :=
  exists m hother, st = .act m hother ∧ (m.action = .cancel id ∨ m.action = .cancelAll)

def start (s : State p i o) : Timed p i o :=
  { host := { state := s, now := 0, log := [] }, timer := 0, calls := [] }

def state (x : Timed p i o) : State p i o :=
  x.host.state

/-- When the graces of the shutdowns elapse, in the order of the calls. -/
def dues (x : Timed p i o) : List Nat :=
  x.calls.map ShutdownCall.due

/-- When the grace of a shutdown elapses that is called for now. -/
def dueAfter (x : Timed p i o) (grace : Option Nat) : Nat :=
  x.timer + grace.getD x.state.options.shutdownGrace.millis

def shutdown (x : Timed p i o) (now : Int) (grace : Option Nat) : Timed p i o :=
  let begun := Shutdown.start Alone.host grace { x.host with now }
  { x with host := begun.1, calls := x.calls ++ [{ due := x.dueAfter grace, stage := begun.2 }] }

def look (x : Timed p i o) (now : Int) (place : Nat) (fires : Bool) : Timed p i o :=
  match x.calls[place]? with
  | some call =>
      let elapsed := fires && call.due ≤ x.timer
      let seen := Shutdown.look Alone.host elapsed { x.host with now } call.stage
      { x with host := seen.1, calls := x.calls.set place { call with stage := seen.2 } }
  | none => x

def step (c : Coding i o) (x : Timed p i o) : Step p i o -> Timed p i o
  | .pass millis => { x with timer := x.timer + millis }
  | .act m _ => { x with host := { x.host with state := x.state.act c m, now := m.now } }
  | .shutdown now grace => x.shutdown now grace
  | .look now place fires => x.look now place fires

def run (c : Coding i o) (x : Timed p i o) (sts : List (Step p i o)) : Timed p i o :=
  sts.foldl (step c) x

/-- Nothing is cut short: a shutdown only waits, no task is cancelled unless that is called
for, and a task that failed is tried again as long as it has retries left. -/
structure Spares (c : Coding i o) (x : Timed p i o) (st : Step p i o) : Prop where
  called : forall now grace, st = .shutdown now grace -> (x.step c st).state = x.state
  looked : forall now place fires, st = .look now place fires ->
    (x.step c st).state = x.state
  cancelled : forall id task, (x.step c st).state.task? id = some task ->
    task.status = .cancelled ->
      (exists before, x.state.task? id = some before ∧ before.status = .cancelled) ∨
        st.Cancels id
  retried : forall m hother id error task, st = .act m hother ->
    m.EndsWith x.state id (.error error) -> x.state.task? id = some task ->
      task.retries < x.state.options.maxRetries ->
        (x.step c st).state.task? id = some (State.retried task error)

end Timed

/-!
# Looking within the grace
-/

namespace Shutdown

theorem state_look_false (y : Alone p i o) (stage : Shutdown) :
    (look Alone.host false y stage).1.state = y.state := by
  have hstop : (stop Alone.host y).1.state = y.state := by
    unfold stop
    split
    · rfl
    · rfl
  cases stage with
  | waiting grace =>
      simp only [look]
      split
      · exact hstop
      · rfl
  | stopping => exact hstop
  | stopped => rfl

theorem retriesClosed_look {elapsed : Bool} {y : Alone p i o} {stage : Shutdown}
    (h : (look Alone.host elapsed y stage).1.state.retriesClosed = true) :
    y.state.retriesClosed = true ∨ elapsed = true := by
  cases elapsed with
  | true => exact Or.inr rfl
  | false =>
      rw [state_look_false] at h
      exact Or.inl h

theorem exists_start_eq (grace : Option Nat) (y : Alone p i o) :
    exists log,
      let allowed := grace.getD y.state.options.shutdownGrace.millis
      start Alone.host grace y = look Alone.host (allowed = 0)
        { y with state := { y.state with shuttingDown := true }, log } (.waiting allowed) := by
  have hdispatches : y.state.beginShutdown.dispatches = false := by
    unfold State.beginShutdown
    split
    · rfl
    · rfl
  have hbegun : (y.state.perform y.now (·.beginShutdown)).state =
      { y.state with shuttingDown := true } := by
    rw [State.state_perform, hdispatches]
    exact y.state.beginShutdown_eq
  refine ⟨y.log ++ (y.state.perform y.now (·.beginShutdown)).log, ?_⟩
  rw [← hbegun]
  rfl

end Shutdown

namespace State

variable {s : State p i o} {c : Coding i o} {m : Moment p i o} {id : TaskId}
  {task : Task i o}

/-!
# Actions within the grace
-/

theorem Consistent.cancelled_act (h : s.Consistent) (hopen : ¬ s.retriesClosed = true)
    (htask : (s.act c m).task? id = some task) (hstatus : task.status = .cancelled) :
    (exists before, s.task? id = some before ∧ before.status = .cancelled) ∨
      m.action = .cancel id ∨ m.action = .cancelAll := by
  have hpasses := h.passes_act c m id
  rcases Option.map_eq_some_iff.mp htask with ⟨r, hrecord, rfl⟩
  rw [hrecord] at hpasses
  cases hwas : s.record? id with
  | none =>
      rw [hwas] at hpasses
      cases hpasses with
      | enter => cases hstatus
      | answer => cases hstatus
  | some q =>
      have hid := id_of_record? hwas
      rw [hwas] at hpasses
      cases hpasses with
      | move hmoves =>
          cases hmoves with
          | stay => exact Or.inl ⟨_, congrArg (Option.map Record.task) hwas, hstatus⟩
          | cancel haction _ => exact Or.inr (hid ▸ haction)
          | giveUp _ _ _ hclosed => exact absurd hclosed hopen
          | _ => cases hstatus

theorem Consistent.retried_act (h : s.Consistent) (hopen : ¬ s.retriesClosed = true)
    {error : Failure} (hends : m.EndsWith s id (.error error)) (htask : s.task? id = some task)
    (hretries : task.retries < s.options.maxRetries) :
    (s.act c m).task? id = some (retried task error) := by
  have houtcome := outcome?_eq_some.mpr hends
  have hfinish : exists place found elapsed, m.action = .finish place found elapsed := by
    rcases hends with ⟨place, found, elapsed, _, haction, _⟩
    exact ⟨place, found, elapsed, haction⟩
  rcases hfinish with ⟨place, found, elapsed, haction⟩
  rcases h.task?_act c m id with ⟨hnone, _⟩ | ⟨before, after, hbefore, hafter, hmoves⟩ |
    ⟨_, _, _, hclear, _⟩
  · cases htask.symm.trans hnone
  · cases htask.symm.trans hbefore
    have hid : task.id = id := by
      rcases Option.map_eq_some_iff.mp htask with ⟨r, hrecord, rfl⟩
      exact id_of_record? hrecord
    rw [hafter]
    cases hmoves with
    | stay =>
        rcases h.exists_running_of_endsWith hends with ⟨running, hrunning, hstatus⟩
        cases htask.symm.trans hrunning
        exact absurd hstatus (h.not_running_of_endsWith c hends hafter)
    | start hdispatch _ => cases haction.symm.trans hdispatch
    | cancel hcancel _ =>
        cases hcancel with
        | inl hcancel => cases haction.symm.trans hcancel
        | inr hcancel => cases haction.symm.trans hcancel
    | succeed hsucceeds _ =>
        cases houtcome.symm.trans (hid ▸ outcome?_eq_some.mpr hsucceeds)
    | retry hfails _ _ _ =>
        cases houtcome.symm.trans (hid ▸ outcome?_eq_some.mpr hfails)
        rfl
    | giveUp _ _ _ hclosed => exact absurd hclosed hopen
    | fail _ _ hspent => exact absurd hretries (Nat.not_lt.mpr hspent)
  · cases haction.symm.trans hclear

end State

namespace Timed

variable {c : Coding i o} {x : Timed p i o} {st : Step p i o}

/-!
# Steps
-/

theorem dues_shutdown (x : Timed p i o) (now : Int) (grace : Option Nat) :
    (x.shutdown now grace).dues = x.dues ++ [x.dueAfter grace] :=
  List.map_append

theorem dues_look (x : Timed p i o) (now : Int) (place : Nat) (fires : Bool) :
    (x.look now place fires).dues = x.dues := by
  unfold look dues
  split
  next call hcall =>
    show (x.calls.set place { call with stage := _ }).map ShutdownCall.due = _
    have hdue : (x.calls.map ShutdownCall.due)[place]? = some call.due := by
      rw [List.getElem?_map, hcall]
      rfl
    rcases List.getElem?_eq_some_iff.mp hdue with ⟨_, hsame⟩
    rw [List.map_set, ← hsame]
    exact List.set_getElem_self _
  next => rfl

theorem timer_look (x : Timed p i o) (now : Int) (place : Nat) (fires : Bool) :
    (x.look now place fires).timer = x.timer := by
  unfold look
  split
  · rfl
  · rfl

theorem exists_state_shutdown (x : Timed p i o) (now : Int) (grace : Option Nat) :
    exists elapsed y stage, y.state = { x.state with shuttingDown := true } ∧
      (elapsed = true -> x.dueAfter grace ≤ x.timer) ∧
      (x.shutdown now grace).state = (Shutdown.look Alone.host elapsed y stage).1.state := by
  rcases Shutdown.exists_start_eq grace { x.host with now } with ⟨log, hstart⟩
  refine ⟨_, _, _, rfl, ?_, congrArg (fun begun => begun.1.state) hstart⟩
  intro helapsed
  have hzero := of_decide_eq_true helapsed
  exact Nat.le_of_eq (congrArg (x.timer + ·) hzero)

theorem exists_state_look (x : Timed p i o) (now : Int) (place : Nat) (fires : Bool) :
    (x.look now place fires).state = x.state ∨
      exists elapsed due stage, due ∈ x.dues ∧ (elapsed = true -> due ≤ x.timer) ∧
        (x.look now place fires).state =
          (Shutdown.look Alone.host elapsed { x.host with now } stage).1.state := by
  unfold look
  split
  next call hcall =>
    refine Or.inr ⟨fires && call.due ≤ x.timer, call.due, call.stage, ?_, ?_, rfl⟩
    · exact List.mem_map_of_mem (List.mem_of_getElem? hcall)
    · exact fun helapsed => of_decide_eq_true (Bool.and_eq_true_iff.mp helapsed).2
  next => exact Or.inl rfl

/-- A shutdown has begun when it was called for, and retries end with some grace. -/
structure Kept (x : Timed p i o) : Prop where
  consistent : x.state.Consistent
  begun : x.dues ≠ [] -> x.state.shuttingDown = true
  closed : x.state.retriesClosed = true -> exists due, due ∈ x.dues ∧ due ≤ x.timer

theorem kept_of_look (c : Coding i o) {elapsed : Bool} {y : Alone p i o} {stage : Shutdown}
    (hstate : x.state = (Shutdown.look Alone.host elapsed y stage).1.state)
    (hconsistent : y.state.Consistent) (hbegun : y.state.shuttingDown = true)
    (hclosed : y.state.retriesClosed = true ∨ elapsed = true ->
      exists due, due ∈ x.dues ∧ due ≤ x.timer) : x.Kept := by
  constructor
  case consistent =>
    rw [hstate]
    exact Shutdown.consistent_look (Alone.stepwise_host c) elapsed stage hconsistent
  case begun =>
    rw [hstate]
    intro _
    exact Shutdown.shuttingDown_follows hbegun
      (Shutdown.follows_look (Alone.stepwise_host c) elapsed y stage)
  case closed =>
    rw [hstate]
    exact fun hafter => hclosed (Shutdown.retriesClosed_look hafter)

theorem Kept.shutdown (h : x.Kept) (c : Coding i o) (now : Int) (grace : Option Nat) :
    (x.shutdown now grace).Kept := by
  rcases x.exists_state_shutdown now grace with ⟨elapsed, y, stage, hy, hle, hstate⟩
  apply kept_of_look c hstate
  · rw [hy]
    exact h.consistent
  · rw [hy]
  · rw [hy, dues_shutdown]
    rintro (hbefore | helapsed)
    · rcases h.closed hbefore with ⟨due, hdue, hdue'⟩
      exact ⟨due, List.mem_append_left _ hdue, hdue'⟩
    · exact ⟨_, List.mem_append_right _ (List.mem_singleton_self _), hle helapsed⟩

theorem Kept.look (h : x.Kept) (c : Coding i o) (now : Int) (place : Nat) (fires : Bool) :
    (x.look now place fires).Kept := by
  have hdues := x.dues_look now place fires
  have htimer := x.timer_look now place fires
  rcases x.exists_state_look now place fires with hsame | ⟨elapsed, due, stage, hdue, hle, hstate⟩
  · rcases h with ⟨hconsistent, hbegun, hclosed⟩
    exact ⟨hsame ▸ hconsistent, hdues ▸ hsame ▸ hbegun, hdues ▸ htimer ▸ hsame ▸ hclosed⟩
  · apply kept_of_look c hstate h.consistent (h.begun (List.ne_nil_of_mem hdue))
    rw [hdues, htimer]
    rintro (hbefore | helapsed)
    · exact h.closed hbefore
    · exact ⟨due, hdue, hle helapsed⟩

theorem Kept.step (h : x.Kept) (c : Coding i o) (st : Step p i o) : (x.step c st).Kept := by
  cases st with
  | pass millis =>
      refine ⟨h.consistent, h.begun, ?_⟩
      intro hclosed
      rcases h.closed hclosed with ⟨due, hdue, hle⟩
      exact ⟨due, hdue, Nat.le_trans hle (Nat.le_add_right _ _)⟩
  | act m hother =>
      have hcontrols := State.controls_act c x.state m
      have hclosed : (x.state.act c m).retriesClosed = x.state.retriesClosed := by
        apply (congrArg Controls.retriesClosed hcontrols).trans
        cases haction : m.action with
        | closeRetries =>
            rw [haction] at hother
            cases hother
        | _ => rfl
      refine ⟨h.consistent.act m, ?_, ?_⟩
      · exact fun hdues => State.shuttingDown_act c (h.begun hdues) m
      · exact fun hafter => h.closed (hclosed.symm.trans hafter)
  | shutdown now grace => exact h.shutdown c now grace
  | look now place fires => exact h.look c now place fires

theorem Kept.run (h : x.Kept) (c : Coding i o) (sts : List (Step p i o)) :
    (x.run c sts).Kept := by
  induction sts generalizing x with
  | nil => exact h
  | cons st sts ih => exact ih (h.step c st)

theorem Kept.state_shutdown (h : x.Kept) (hdues : x.dues ≠ []) (now : Int)
    {grace : Option Nat} (hgrace : x.timer < x.dueAfter grace) :
    (x.shutdown now grace).state = x.state := by
  rcases x.exists_state_shutdown now grace with ⟨elapsed, y, stage, hy, hle, hstate⟩
  have helapsed : elapsed = false := by
    apply Bool.eq_false_iff.mpr
    exact fun helapsed => Nat.not_le.mpr hgrace (hle helapsed)
  rw [hstate, helapsed, Shutdown.state_look_false, hy, ← h.begun hdues]

theorem state_look (now : Int) (place : Nat) (fires : Bool)
    (hwithin : forall due, due ∈ x.dues -> x.timer < due) :
    (x.look now place fires).state = x.state := by
  rcases x.exists_state_look now place fires with hsame | ⟨elapsed, due, stage, hdue, hle, hlooked⟩
  · exact hsame
  · have helapsed : elapsed = false := by
      apply Bool.eq_false_iff.mpr
      exact fun helapsed => Nat.not_le.mpr (hwithin due hdue) (hle helapsed)
    rw [hlooked, helapsed]
    exact Shutdown.state_look_false _ stage

/-- Unless something happens to the scheduler, a step within all graces leaves it alone. -/
theorem Kept.state_step (h : x.Kept) (hdues : x.dues ≠ [])
    (hwithin : forall due, due ∈ (x.step c st).dues -> x.timer < due)
    (hst : forall m hother, st ≠ .act m hother) : (x.step c st).state = x.state := by
  cases st with
  | pass millis => rfl
  | act m hother => exact absurd rfl (hst m hother)
  | shutdown now grace =>
      apply h.state_shutdown hdues now
      apply hwithin
      exact (x.dues_shutdown now grace).symm ▸
        List.mem_append_right _ (List.mem_singleton_self _)
  | look now place fires =>
      apply state_look now place fires
      exact x.dues_look now place fires ▸ hwithin

theorem dues_prefix_step (c : Coding i o) (x : Timed p i o) (st : Step p i o) :
    x.dues <+: (x.step c st).dues := by
  cases st with
  | pass millis => exact List.prefix_rfl
  | act m hother => exact List.prefix_rfl
  | shutdown now grace => exact ⟨_, (x.dues_shutdown now grace).symm⟩
  | look now place fires => exact (x.dues_look now place fires).symm ▸ List.prefix_rfl

theorem timer_le_step (c : Coding i o) (x : Timed p i o) (st : Step p i o) :
    x.timer ≤ (x.step c st).timer := by
  cases st with
  | pass millis => exact Nat.le_add_right _ _
  | act m hother => exact Nat.le_refl _
  | shutdown now grace => exact Nat.le_refl _
  | look now place fires => exact Nat.le_of_eq (x.timer_look now place fires).symm

theorem dues_prefix_run (c : Coding i o) (x : Timed p i o) (sts : List (Step p i o)) :
    x.dues <+: (x.run c sts).dues := by
  induction sts generalizing x with
  | nil => exact List.prefix_rfl
  | cons st sts ih => exact (x.dues_prefix_step c st).trans (ih (x.step c st))

theorem Kept.spares (h : x.Kept) (hdues : x.dues ≠ [])
    (hwithin : forall due, due ∈ (x.step c st).dues -> x.timer < due) : x.Spares c st := by
  have hopen : ¬ x.state.retriesClosed = true := by
    intro hclosed
    rcases h.closed hclosed with ⟨due, hdue, hle⟩
    exact Nat.not_le.mpr (hwithin due ((x.dues_prefix_step c st).subset hdue)) hle
  constructor
  case called =>
    rintro now grace rfl
    exact h.state_step hdues hwithin (fun _ _ heq => nomatch heq)
  case looked =>
    rintro now place fires rfl
    exact h.state_step hdues hwithin (fun _ _ heq => nomatch heq)
  case cancelled =>
    intro id task htask hstatus
    by_cases hact : exists m hother, st = .act m hother
    · rcases hact with ⟨m, hother, rfl⟩
      rcases h.consistent.cancelled_act hopen htask hstatus with hbefore | hcancels
      · exact Or.inl hbefore
      · exact Or.inr ⟨m, hother, rfl, hcancels⟩
    · rw [h.state_step hdues hwithin fun m hother heq => hact ⟨m, hother, heq⟩] at htask
      exact Or.inl ⟨task, htask, hstatus⟩
  case retried =>
    rintro m hother id error task rfl hends htask hretries
    exact h.consistent.retried_act hopen hends htask hretries

/-!
# Runs
-/

theorem run_concat (c : Coding i o) (x : Timed p i o) (sts : List (Step p i o))
    (st : Step p i o) : x.run c (sts ++ [st]) = (x.run c sts).step c st :=
  List.foldl_append

/-- As long as no grace has elapsed, the only tasks cancelled are those called for. -/
theorem Kept.cancelled_run (h : x.Kept) (hdues : x.dues ≠ []) {sts : List (Step p i o)}
    (hwithin : forall due, due ∈ (x.run c sts).dues -> (x.run c sts).timer < due)
    {id : TaskId} {task : Task i o} (htask : (x.run c sts).state.task? id = some task)
    (hstatus : task.status = .cancelled) :
    (exists before, x.state.task? id = some before ∧ before.status = .cancelled) ∨
      exists st, st ∈ sts ∧ st.Cancels id := by
  induction sts using List.reverseRecOn generalizing task with
  | nil => exact Or.inl ⟨task, htask, hstatus⟩
  | append_singleton sts st ih =>
      -- The timer only goes forward, so the steps before the last one were within the grace.
      rw [run_concat] at hwithin htask
      let y := x.run c sts
      have hbefore : forall due, due ∈ (y.step c st).dues -> y.timer < due := fun due hdue =>
        Nat.lt_of_le_of_lt (y.timer_le_step c st) (hwithin due hdue)
      have hcalled : y.dues ≠ [] := fun hnil =>
        hdues (List.prefix_nil.mp (hnil ▸ x.dues_prefix_run c sts))
      rcases ((h.run c sts).spares hcalled hbefore).cancelled id task htask hstatus with
        ⟨earlier, hearlier, hcancelled⟩ | hcancels
      · have hstill := fun due hdue => hbefore due ((y.dues_prefix_step c st).subset hdue)
        rcases ih hstill hearlier hcancelled with hold | ⟨st', hst', hcancels⟩
        · exact Or.inl hold
        · exact Or.inr ⟨st', List.mem_append_left _ hst', hcancels⟩
      · exact Or.inr ⟨st, List.mem_append_right _ (List.mem_singleton_self st), hcancels⟩

theorem kept_start (options : Options) (cacheOptions : Cache.Options) {ids : IdSource}
    (hids : Function.Injective ids.nth) :
    (start (State.new options cacheOptions ids).state : Timed p i o).Kept where
  consistent := State.consistent_new options cacheOptions hids
  begun := fun hne => absurd rfl hne
  closed := fun hclosed => nomatch hclosed

theorem within_of_head {dues more : List Nat} {first timer : Nat}
    (hfirst : dues.head? = some first) (hmore : dues <+: more) (hlt : timer < first)
    (hothers : forall due, due ∈ more.tail -> timer < due) :
    forall due, due ∈ more -> timer < due := by
  rcases hmore with ⟨rest, rfl⟩
  cases dues with
  | nil => cases hfirst
  | cons due dues =>
      cases hfirst
      exact List.forall_mem_cons.mpr ⟨hlt, hothers⟩

/-- From the first shutdown on, while its grace has not elapsed, and neither has that of a
shutdown that was called for later: another shutdown, whatever its grace, leaves the
scheduler as it is, no task is cancelled but by a call to cancel it or to cancel all, and
a task that fails with retries left is tried again. -/
theorem spares_run (c : Coding i o) (options : Options) (cacheOptions : Cache.Options)
    {ids : IdSource} (hids : Function.Injective ids.nth) (sts : List (Step p i o)) :
    let x := (start (State.new options cacheOptions ids).state).run c sts
    forall first, x.dues.head? = some first ->
      (forall st, x.timer < first ->
        (forall due, due ∈ (x.step c st).dues.tail -> x.timer < due) -> x.Spares c st) ∧
      forall later,
        let y := x.run c later
        y.timer < first -> (forall due, due ∈ y.dues.tail -> y.timer < due) ->
          forall id task, y.state.task? id = some task -> task.status = .cancelled ->
            (exists before, x.state.task? id = some before ∧ before.status = .cancelled) ∨
              exists st, st ∈ later ∧ st.Cancels id := by
  intro x first hfirst
  have h : x.Kept := (kept_start options cacheOptions hids).run c sts
  have hdues : x.dues ≠ [] := fun hnil => nomatch hnil ▸ hfirst
  constructor
  · intro st hlt hothers
    exact h.spares hdues (within_of_head hfirst (x.dues_prefix_step c st) hlt hothers)
  · intro later y hlt hothers id task
    exact h.cancelled_run hdues (within_of_head hfirst (x.dues_prefix_run c later) hlt hothers)

/-- While the first shutdown still waits, another one waits longer, and the task that runs
fails and is tried again. -/
theorem spares_longer :
    let c : Coding String String := { input := fun _ => none, output := .text }
    let least : Options := { Options.forWorkers 1 with minWorkers := 0, maxWorkers := 0 }
    let sts : List (Step Unit String String) :=
      [.act ⟨0, .setProcessor ()⟩ rfl, .act ⟨1, .submit "a" 0⟩ rfl, .act ⟨1, .dispatch⟩ rfl,
        .act ⟨2, .submit "b" 0⟩ rfl, .shutdown 3 (some 5000), .pass 10,
        .shutdown 13 (some 60000), .pass 4989]
    let st : Step Unit String String := .act ⟨14, .finish 0 (.error (.execution "no")) .zero⟩ rfl
    let x := (start (State.new least .default (.sequential "task")).state).run c sts
    x.Spares c st ∧ x.dues = [5000, 60010] ∧ x.timer = 4999 ∧
      (x.step c st).state.records.map (fun r => r.task.status) = [.pending, .pending] := by
  intro c least sts st x
  have hdues : x.dues = [5000, 60010] := by decide +kernel
  have htimer : x.timer = 4999 := by decide +kernel
  have hrun := spares_run c least .default (State.injective_sequential "task") sts 5000
    (by decide +kernel)
  refine ⟨hrun.1 st (by decide +kernel) ?_, hdues, htimer, by decide +kernel⟩
  decide +kernel

/-- A shorter grace that elapses first cuts that of the first shutdown short: the task that
waits is cancelled, and the one that runs is not tried again. -/
theorem not_spares_shorter :
    let c : Coding String String := { input := fun _ => none, output := .text }
    let least : Options := { Options.forWorkers 1 with minWorkers := 0, maxWorkers := 0 }
    let sts : List (Step Unit String String) :=
      [.act ⟨0, .setProcessor ()⟩ rfl, .act ⟨1, .submit "a" 0⟩ rfl, .act ⟨1, .dispatch⟩ rfl,
        .act ⟨2, .submit "b" 0⟩ rfl, .shutdown 3 (some 5000), .pass 10]
    let again : Step Unit String String := .shutdown 13 (some 0)
    let fails : Step Unit String String :=
      .act ⟨14, .finish 0 (.error (.execution "no")) .zero⟩ rfl
    let x := (start (State.new least .default (.sequential "task")).state).run c sts
    let y := x.step c again
    let statuses : Timed Unit String String -> List Status :=
      fun z => z.state.records.map fun r => r.task.status
    x.dues = [5000] ∧ x.timer = 10 ∧ y.dues = [5000, 10] ∧ y.timer = 10 ∧
      ¬ x.Spares c again ∧ ¬ y.Spares c fails ∧
      statuses x = [.running, .pending] ∧ statuses y = [.running, .cancelled] ∧
      statuses (y.step c fails) = [.cancelled, .cancelled] := by
  intro c least sts again fails x y statuses
  have hbefore : statuses x = [.running, .pending] := by decide +kernel
  have hbetween : statuses y = [.running, .cancelled] := by decide +kernel
  have hafter : statuses (y.step c fails) = [.cancelled, .cancelled] := by decide +kernel
  refine ⟨by decide +kernel, by decide +kernel, by decide +kernel, by decide +kernel, ?_, ?_,
    hbefore, hbetween, hafter⟩
  · intro h
    have hsame : y.state = x.state := h.called 13 (some 0) rfl
    have hstatuses : statuses y = statuses x :=
      congrArg (fun s : State Unit String String => s.records.map fun r => r.task.status) hsame
    rw [hbefore, hbetween] at hstatuses
    cases hstatuses
  · intro h
    have hwas : (y.state.task? ⟨"task-1"⟩).map Task.status = some .running := by decide +kernel
    have his : ((y.step c fails).state.task? ⟨"task-1"⟩).map Task.status = some .cancelled := by
      decide +kernel
    rcases Option.map_eq_some_iff.mp his with ⟨task, htask, hstatus⟩
    rcases h.cancelled _ task htask hstatus with ⟨before, hbefore, hcancelled⟩ | hcancels
    · rw [hbefore, Option.map_some, hcancelled] at hwas
      cases hwas
    · rcases hcancels with ⟨m, _, hfails, haction⟩
      rw [← Step.act.inj hfails] at haction
      rcases haction with haction | haction
      · cases haction
      · cases haction

end Timed
end Scheduler
end CodeSurvey
