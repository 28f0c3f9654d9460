import CodeSurvey.Proofs.Scheduler.PendingWork
import Mathlib.Data.List.Induction

/-!
# What is told of the whole scheduler

Most events are about one task.  Two are about all of them: that a slot became free while
nothing waits, and that nothing waits and nothing runs any more.  Each is told by exactly
those actions that bring it about, and after whatever they tell of tasks.
-/

namespace CodeSurvey
namespace Scheduler

open Event (OfTasks)

namespace State

variable {s t u : State p i o} {c : Coding i o} {now : Int} {ended : Prop}
  {told : List Event}

/-- What an action from `s` to `t` tells, by what it does to the work; `ended` says that it
is the end of an attempt. -/
structure Signals (ended : Prop) (s t : State p i o) (told : List Event) : Prop where
  drained : s.Busy -> ¬ t.Busy -> exists rest, told = rest ++ [.drained] ∧ .drained ∉ rest
  not_drained : (s.Busy -> t.Busy) -> .drained ∉ told
  idle : ended -> t.queue = [] -> told.filter Event.isIdle = [.idle t.inFlight.length]
  not_idle : (ended -> t.queue ≠ []) -> told.filter Event.isIdle = []
  /-- Where no task waited or ran, there is only work once a task was submitted. -/
  roused : t.Busy -> s.Busy ∨ exists id priority, .queued id priority ∈ told

theorem Signals.congr (h : Signals ended s t told) (hrecords : u.records = t.records)
    (hqueue : u.queue = t.queue) (hflights : u.inFlight = t.inFlight) :
    Signals ended s u told where
  drained := fun hs hu => h.drained hs fun ht => hu (ht.congr hrecords)
  not_drained := fun hkept => h.not_drained fun hs => (hkept hs).congr hrecords.symm
  idle := by
    rw [hqueue, hflights]
    exact h.idle
  not_idle := by
    rw [hqueue]
    exact h.not_idle
  roused := fun hu => h.roused (hu.congr hrecords.symm)

theorem Proceeds.signals (h : Proceeds s t told) (hended : ¬ ended) :
    Signals ended s t told where
  drained := fun hs ht => absurd (h.busy hs) ht
  not_drained := fun _ => h.tasks.drained_not_mem
  idle := fun hends => absurd hends hended
  not_idle := fun _ => h.tasks.filter_isIdle
  roused := h.roused

theorem Consistent.signals_emitDrained (h : t.Consistent) (hs : s.Busy)
    (hevents : t.events = s.events ++ told) (htold : .drained ∉ told)
    (hidle : ended -> t.queue = [] -> told.filter Event.isIdle = [.idle t.inFlight.length])
    (hnot_idle : (ended -> t.queue ≠ []) -> told.filter Event.isIdle = []) :
    exists told', t.emitDrained.events = s.events ++ told' ∧
      Signals ended s t.emitDrained told' := by
  have hbusy := h.busy_iff
  unfold State.emitDrained
  split
  next hdrained =>
    rw [hdrained] at hbusy
    have hgone : ¬ t.Busy := fun ht => Bool.noConfusion (hbusy.mp ht)
    have hfilter : (told ++ [Event.drained]).filter Event.isIdle =
        told.filter Event.isIdle :=
      (List.filter_append _ _).trans (List.append_nil _)
    refine ⟨told ++ [.drained], ?_, ?_⟩
    · show t.events ++ _ = _
      rw [hevents, List.append_assoc]
    · constructor
      case drained => exact fun _ _ => ⟨told, rfl, htold⟩
      case not_drained => exact fun hkept => absurd (hkept hs) hgone
      case idle => exact fun hends hnil => hfilter.trans (hidle hends hnil)
      case not_idle => exact fun hne => hfilter.trans (hnot_idle hne)
      case roused => exact fun _ => Or.inl hs
  next hdrained =>
    have hleft : t.Busy := hbusy.mpr (Bool.eq_false_iff.mpr hdrained)
    refine ⟨told, hevents, ?_⟩
    constructor
    case drained => exact fun _ ht => absurd hleft ht
    case not_drained => exact fun _ => htold
    case idle => exact hidle
    case not_idle => exact hnot_idle
    case roused => exact fun _ => Or.inl hs

theorem emitIdle_eq (s : State p i o) :
    s.emitIdle = if s.queue.isEmpty then (s.emit (.idle s.active)).emitDrained else s := by
  unfold emitIdle
  split
  next hempty =>
    have hdrained : (s.emit (.idle s.active)).isDrained = decide (s.active = 0) := by
      show (s.queue.isEmpty && decide (s.active = 0)) = _
      rw [hempty, Bool.true_and]
    unfold emitDrained
    rw [hdrained]
    simp only [decide_eq_true_iff]
    rfl
  next => rfl

theorem Consistent.signals_emitIdle (h : t.Consistent) (hs : s.Busy)
    (hevents : t.events = s.events ++ told) (htasks : OfTasks told) (hended : ended) :
    exists told', t.emitIdle.events = s.events ++ told' ∧
      Signals ended s t.emitIdle told' := by
  rw [emitIdle_eq]
  split
  next hempty =>
    have hnil := List.isEmpty_iff.mp hempty
    have hactive : t.active = t.inFlight.length := h.active_eq
    have htold : Event.drained ∉ told ++ [.idle t.active] := by
      intro hmem
      cases List.mem_append.mp hmem with
      | inl hmem => exact htasks.drained_not_mem hmem
      | inr hmem => cases List.mem_singleton.mp hmem
    have hfilter : (told ++ [Event.idle t.active]).filter Event.isIdle =
        [.idle t.inFlight.length] := by
      rw [List.filter_append, htasks.filter_isIdle, hactive]
      rfl
    apply Consistent.signals_emitDrained (t := t.emit (.idle t.active)) h hs _ htold
    · exact fun _ _ => hfilter
    · exact fun hne => absurd hnil (hne hended)
    · show t.events ++ _ = _
      rw [hevents, List.append_assoc]
  next hempty =>
    have hne : t.queue ≠ [] := fun hnil => hempty (List.isEmpty_iff.mpr hnil)
    have hleft := h.busy_of_queue hne
    refine ⟨told, hevents, ?_⟩
    constructor
    case drained => exact fun _ ht => absurd hleft ht
    case not_drained => exact fun _ => htasks.drained_not_mem
    case idle => exact fun _ hnil => absurd hnil hne
    case not_idle => exact fun _ => htasks.filter_isIdle
    case roused => exact fun _ => Or.inl hs

/-!
# Cancelling
-/

/-- What marking tasks tells; when none of them waited it does nothing. -/
structure Marks (s : State p i o) (marked : State p i o × Nat) (told : List Event) :
    Prop where
  events : marked.1.events = s.events ++ told
  tasks : OfTasks told
  none : marked.2 = 0 -> marked.1 = s
  some : marked.2 ≠ 0 -> s.Busy

theorem exists_marks (s : State p i o) (now : Int) (ids : List TaskId) :
    exists told, s.Marks (s.markAllCancelled now ids) told := by
  -- The tasks are counted from the front, so the last one is marked after all others.
  induction ids using List.reverseRecOn with
  | nil =>
      exact ⟨[], (List.append_nil _).symm, OfTasks.nil, fun _ => rfl, fun hne => absurd rfl hne⟩
  | append_singleton ids id ih =>
      rcases ih with ⟨told, hevents, htasks, hnone, hsome⟩
      have hlast : s.markAllCancelled now (ids ++ [id]) =
          (((s.markAllCancelled now ids).1.markCancelled now id).1,
            if ((s.markAllCancelled now ids).1.markCancelled now id).2 then
              (s.markAllCancelled now ids).2 + 1
            else (s.markAllCancelled now ids).2) := List.foldl_append
      rw [hlast]
      cases hpending : (s.markAllCancelled now ids).1.pending? id with
      | none =>
          rw [markCancelled_of_eq_none hpending now]
          exact ⟨told, hevents, htasks, hnone, hsome⟩
      | some r =>
          rw [markCancelled_of_eq_some hpending now]
          refine ⟨told ++ [.cancelled id], ?_, htasks.append (OfTasks.singleton rfl), ?_, ?_⟩
          · show (s.markAllCancelled now ids).1.events ++ _ = _
            rw [hevents, List.append_assoc]
          · exact fun hzero => absurd hzero (Nat.succ_ne_zero _)
          · intro _
            by_cases hzero : (s.markAllCancelled now ids).2 = 0
            · rw [hnone hzero] at hpending
              rcases mem_of_pending? hpending with ⟨hr, hstatus⟩
              exact ⟨r, hr, Or.inl hstatus⟩
            · exact hsome hzero

theorem Consistent.signals_cancelled (h : t.Consistent) (hs : s.Busy) (hended : ¬ ended)
    (hevents : t.events = s.events ++ told) (htasks : OfTasks told) :
    exists told', t.emitDrained.events = s.events ++ told' ∧
      Signals ended s t.emitDrained told' :=
  h.signals_emitDrained hs hevents htasks.drained_not_mem
    (fun hends => absurd hends hended) (fun _ => htasks.filter_isIdle)

theorem Consistent.exists_signals_cancel (h : s.Consistent) (now : Int) (id : TaskId)
    (hended : ¬ ended) :
    exists told, (s.cancel now id).state.events = s.events ++ told ∧
      Signals ended s (s.cancel now id).state told := by
  cases hpending : s.pending? id with
  | none =>
      unfold State.cancel
      rw [markCancelled_of_eq_none hpending now]
      have hstill := Proceeds.refl s
      exact ⟨[], hstill.events, hstill.signals hended⟩
  | some r =>
      rcases (pending?_eq_some h.ids_nodup).mp hpending with ⟨hr, rfl, hstatus⟩
      rcases books_markCancelled h now hr hstatus with ⟨hmark, hbooks⟩
      unfold State.cancel
      rw [hmark]
      exact Consistent.signals_cancelled hbooks ⟨r, hr, Or.inl hstatus⟩ hended rfl
        (OfTasks.singleton rfl)

theorem Consistent.exists_signals_cancelAll (h : s.Consistent) (now : Int)
    (hended : ¬ ended) :
    exists told, (s.cancelAll now).state.events = s.events ++ told ∧
      Signals ended s (s.cancelAll now).state told := by
  rcases exists_marks { s with queue := [] } now (s.queue.map Waiting.id) with
    ⟨told, hevents, htasks, hnone, hsome⟩
  have hmarked : (markAllCancelled { s with queue := [] } now
      (s.queue.map Waiting.id)).1.Consistent :=
    consistent_markAllCancelled s.queue rfl h
  unfold State.cancelAll
  simp only
  split
  next hzero =>
    have hstill : Proceeds s (markAllCancelled { s with queue := [] } now
        (s.queue.map Waiting.id)).1 [] := by
      rw [hnone hzero]
      exact Proceeds.still rfl Iff.rfl
    exact ⟨[], hstill.events, hstill.signals hended⟩
  next hsome' => exact hmarked.signals_cancelled (hsome hsome') hended hevents htasks

/-!
# Ending
-/

theorem exists_events_conclude (s : State p i o) (now : Int) (r : Record i o)
    (outcome : Except Failure o) (elapsed : Time.Span) :
    exists e, (s.conclude now r outcome elapsed).1.events = s.events ++ [e] ∧
      e.task?.isSome = true := by
  unfold conclude
  split
  · exact ⟨_, rfl, rfl⟩
  · split
    · split
      · exact ⟨_, rfl, rfl⟩
      · exact ⟨_, rfl, rfl⟩
    · exact ⟨_, rfl, rfl⟩

theorem Consistent.exists_signals_finish (h : s.Consistent) {a : Attempt p i}
    (ha : a ∈ s.inFlight) (now : Int) (outcome : Except Failure o) (elapsed : Time.Span)
    (hended : ended) :
    exists told, (s.finish now a.id outcome elapsed).state.events = s.events ++ told ∧
      Signals ended s (s.finish now a.id outcome elapsed).state told := by
  rcases h.exists_finished_eq ha now outcome elapsed with
    ⟨r, _, hr, hid, hstatus, hfinished⟩
  have hconcluded := h.conclude now hr hstatus outcome elapsed
  rw [hid] at hconcluded
  rcases exists_events_conclude (s.release a.id) now r outcome elapsed with
    ⟨e, hevents, htask⟩
  rcases hconcluded.signals_emitIdle ⟨r, hr, Or.inr hstatus⟩ hevents
    (OfTasks.singleton htask) hended with ⟨told, htold, hsignals⟩
  rw [hfinished]
  exact ⟨told, htold, hsignals.congr rfl rfl rfl⟩

end State

/-!
# Actions
-/

/-- It is the end of an attempt that is in flight. -/
def Moment.Ends (m : Moment p i o) (s : State p i o) : Prop :=
  exists place found elapsed a,
    m.action = .finish place found elapsed ∧ s.inFlight[place]? = some a

theorem Moment.not_ends {m : Moment p i o} {s : State p i o}
    (hm : forall place found elapsed, m.action ≠ .finish place found elapsed) :
    ¬ m.Ends s := by
  rintro ⟨place, found, elapsed, _, heq, _⟩
  exact hm place found elapsed heq

namespace State

variable {s : State p i o} {c : Coding i o} {m : Moment p i o}

theorem Consistent.exists_signals_act (h : s.Consistent) (hdeliver : m.action ≠ .deliver) :
    exists told, (s.act c m).events = s.events ++ told ∧
      Signals (m.Ends s) s (s.act c m) told := by
  cases hm : m.action.endsTasks with
  | false =>
      rcases exists_proceeds_act (c := c) s hm hdeliver with ⟨told, hproceeds⟩
      have hended : ¬ m.Ends s := by
        apply Moment.not_ends
        intro place found elapsed heq
        rw [heq] at hm
        cases hm
      exact ⟨told, hproceeds.events, hproceeds.signals hended⟩
  | true =>
      rcases m with ⟨now, action⟩
      cases action with
      | cancel id =>
          exact h.exists_signals_cancel now id (Moment.not_ends (by rintro _ _ _ ⟨⟩))
      | cancelAll =>
          exact h.exists_signals_cancelAll now (Moment.not_ends (by rintro _ _ _ ⟨⟩))
      | finish place found elapsed =>
          unfold State.act
          simp only
          split
          next a hplace =>
            exact h.exists_signals_finish (List.mem_of_getElem? hplace) now (a.outcome found)
              elapsed ⟨place, found, elapsed, a, rfl, hplace⟩
          next hplace =>
            have hstill := Proceeds.refl s
            refine ⟨[], hstill.events, hstill.signals ?_⟩
            rintro ⟨_, _, _, a, ⟨⟩, hsome⟩
            rw [hplace] at hsome
            cases hsome
      | _ => cases hm

end State

namespace Course

open State (Signals Proceeds)

variable {x : Course p i o} {c : Coding i o}

theorem log_deliver {m : Moment p i o} (hm : m.action = .deliver) :
    (x.act c m).log = x.log ++ [] := by
  rcases m with ⟨now, action⟩
  cases hm
  rfl

/-- What an action adds to what is told. -/
theorem exists_signals_act (h : x.state.Consistent) (m : Moment p i o) :
    exists told, (x.act c m).log = x.log ++ told ∧
      Signals (m.Ends x.state) x.state (x.act c m).state told := by
  rw [state_act]
  by_cases hm : m.action = .deliver
  · rcases m with ⟨now, action⟩
    cases hm
    have hended : ¬ Moment.Ends ⟨now, .deliver⟩ x.state :=
      Moment.not_ends (by rintro _ _ _ ⟨⟩)
    exact ⟨[], log_deliver rfl, ((Proceeds.refl x.state).signals hended).congr rfl rfl rfl⟩
  · rcases h.exists_signals_act (c := c) hm with ⟨told, hevents, hsignals⟩
    refine ⟨told, ?_, hsignals⟩
    rw [log_act_of_ne hm, hevents, ← List.append_assoc]
    rfl

theorem exists_ofTasks_act (x : Course p i o) {m : Moment p i o}
    (hm : m.action.endsTasks = false) :
    exists told, (x.act c m).log = x.log ++ told ∧ OfTasks told := by
  by_cases hdeliver : m.action = .deliver
  · exact ⟨[], log_deliver hdeliver, OfTasks.nil⟩
  · rcases State.exists_proceeds_act (c := c) x.state hm hdeliver with ⟨told, hproceeds⟩
    refine ⟨told, ?_, hproceeds.tasks⟩
    rw [log_act_of_ne hdeliver, hproceeds.events, ← List.append_assoc]
    rfl

/-!
# Runs
-/

/-- Since it was told that no work is left, there is work only if a task was submitted. -/
def Rests (x : Course p i o) : Prop :=
  forall before after, x.log = before ++ .drained :: after ->
    (forall id priority, .queued id priority ∉ after) -> ¬ x.state.Busy

theorem Rests.act (h : x.Rests) (hx : x.state.Consistent) (m : Moment p i o) :
    (x.act c m).Rests := by
  rcases exists_signals_act (c := c) hx m with ⟨told, hlog, hsignals⟩
  intro before after hsplit hunqueued hbusy
  rw [hlog] at hsplit
  rcases Event.append_eq_split hsplit with ⟨rest, hbefore, rfl⟩ | ⟨mid, _, htold⟩
  · cases hsignals.roused hbusy with
    | inl hwas =>
        apply h before rest hbefore _ hwas
        exact fun id priority hmem => hunqueued id priority (List.mem_append_left _ hmem)
    | inr hqueued =>
        rcases hqueued with ⟨id, priority, hmem⟩
        exact hunqueued id priority (List.mem_append_right _ hmem)
  · apply hsignals.not_drained fun _ => hbusy
    rw [htold]
    exact List.mem_append_right _ List.mem_cons_self

/-- Between two times at which no work was left a task was submitted. -/
def Spaced (x : Course p i o) : Prop :=
  forall before between after,
    x.log = before ++ .drained :: (between ++ .drained :: after) ->
      exists id priority, .queued id priority ∈ between

theorem Spaced.act (h : x.Spaced) (hrests : x.Rests) (hx : x.state.Consistent)
    (m : Moment p i o) : (x.act c m).Spaced := by
  rcases exists_signals_act (c := c) hx m with ⟨told, hlog, hsignals⟩
  intro before between after hsplit
  rw [hlog, ← List.cons_append, ← List.append_assoc] at hsplit
  rcases Event.append_eq_split hsplit with ⟨rest, hbefore, _⟩ | ⟨mid, hbefore, htold⟩
  · apply h before between rest
    rw [hbefore, List.append_assoc]
    rfl
  · -- The second of the two is told now, so there was work before.
    have hmem : Event.drained ∈ told := by
      rw [htold]
      exact List.mem_append_right _ List.mem_cons_self
    have hended : ¬ (x.state.Busy -> (x.act c m).state.Busy) :=
      fun hkept => hsignals.not_drained hkept hmem
    rcases Classical.not_imp.mp hended with ⟨hbusy, hidle⟩
    rcases hsignals.drained hbusy hidle with ⟨first, hlast, hfirst⟩
    have hmid : Event.drained ∉ mid := by
      rw [htold] at hlast
      rw [Event.eq_of_concat hlast.symm hfirst]
      exact hfirst
    rcases Event.append_eq_split hbefore.symm with ⟨rest, hlog', rfl⟩ | ⟨mid', _, hmid'⟩
    · by_contra hunqueued
      apply hrests before rest hlog' _ hbusy
      intro id priority hqueued
      exact hunqueued ⟨id, priority, List.mem_append_left _ hqueued⟩
    · rw [hmid'] at hmid
      exact absurd (List.mem_append_right _ List.mem_cons_self) hmid

theorem spaced_run (h : x.Spaced) (hrests : x.Rests) (hx : x.state.Consistent)
    (ms : List (Moment p i o)) : (x.run c ms).Spaced := by
  induction ms generalizing x with
  | nil => exact h
  | cons m ms ih =>
      have hact : (x.act c m).state.Consistent := state_act c x m ▸ hx.act m
      exact ih (h.act hrests hx m) (hrests.act hx m) hact

/-- Whatever happened to a new scheduler, and whatever happens to it next: that no work is
left is told last, and exactly by an action that leaves none where there was some; that a
slot is idle is told exactly by the end of an attempt behind which nothing waits, with the
number of those that still run.  Actions that end no task tell neither, such as a
submission, even when it is answered at once, and a dispatch.  Between two times at which
no work was left a task was submitted. -/
theorem signals_run (c : Coding i o) (options : Options) (cacheOptions : Cache.Options)
    {ids : IdSource} (hids : Function.Injective ids.nth) (ms : List (Moment p i o)) :
    let x := (start (State.new options cacheOptions ids).state).run c ms
    (forall m, exists told, (x.act c m).log = x.log ++ told ∧
        Signals (m.Ends x.state) x.state (x.act c m).state told ∧
        (m.action.endsTasks = false -> OfTasks told)) ∧
      forall before between after,
        x.log = before ++ .drained :: (between ++ .drained :: after) ->
          exists id priority, .queued id priority ∈ between := by
  intro x
  let x₀ : Course p i o := start (State.new options cacheOptions ids).state
  have hx₀ : x₀.state.Consistent := State.consistent_new options cacheOptions hids
  have hx : x.state.Consistent := by
    have hrun := hx₀.run (c := c) ms
    rw [← state_run] at hrun
    exact hrun
  constructor
  · intro m
    rcases exists_signals_act (c := c) hx m with ⟨told, hlog, hsignals⟩
    refine ⟨told, hlog, hsignals, ?_⟩
    intro hm
    rcases exists_ofTasks_act (c := c) x hm with ⟨told', hlog', htasks⟩
    rw [List.append_cancel_left (hlog.symm.trans hlog')]
    exact htasks
  · have hnil : x₀.log = [] := rfl
    apply spaced_run _ _ hx₀
    · intro before between after hsplit
      rw [hnil] at hsplit
      simp at hsplit
    · intro before after hsplit
      rw [hnil] at hsplit
      simp at hsplit

/-- A task that is cancelled while it waits, and then one that runs to its end. -/
theorem signals_run_twice :
    let c : Coding String String := { input := fun _ => none, output := .text }
    let ms : List (Moment Unit String String) :=
      [⟨0, .setProcessor ()⟩, ⟨1, .submit "a" 0⟩, ⟨2, .cancel ⟨"task-1"⟩⟩,
        ⟨3, .submit "b" 0⟩, ⟨3, .dispatch⟩]
    let m : Moment Unit String String := ⟨4, .finish 0 (.ok "done") .zero⟩
    let x := (start (State.new (.forWorkers 1) .default (.sequential "task")).state).run c ms
    let told : List Event := [.completed ⟨"task-2"⟩ .zero false, .idle 0, .drained]
    x.log = [.queued ⟨"task-1"⟩ 0, .cancelled ⟨"task-1"⟩, .drained, .queued ⟨"task-2"⟩ 0,
        .started ⟨"task-2"⟩ 1] ∧
      (x.act c m).log = x.log ++ told ∧
      Signals (m.Ends x.state) x.state (x.act c m).state told ∧
      exists id priority, Event.queued id priority ∈
        [.queued ⟨"task-2"⟩ 0, .started ⟨"task-2"⟩ 1, .completed ⟨"task-2"⟩ .zero false,
          .idle 0] := by
  intro c ms m x told
  have hids := State.injective_sequential "task"
  have hlog : (x.act c m).log = x.log ++ told := by decide +kernel
  have hrun := signals_run c (.forWorkers 1) .default hids ms
  rcases hrun.1 m with ⟨told', hlog', hsignals, _⟩
  have htold : told' = told := List.append_cancel_left (hlog'.symm.trans hlog)
  refine ⟨by decide +kernel, hlog, htold ▸ hsignals, ?_⟩
  apply (signals_run c (.forWorkers 1) .default hids (ms ++ [m])).2
    [.queued ⟨"task-1"⟩ 0, .cancelled ⟨"task-1"⟩] _ []
  decide +kernel

end Course
end Scheduler
end CodeSurvey
