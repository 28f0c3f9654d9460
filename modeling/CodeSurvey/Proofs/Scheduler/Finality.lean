import CodeSurvey.Proofs.Scheduler.Closing
import CodeSurvey.Proofs.Scheduler.Hosts

/-!
# Shutdown is final

A shutdown looks at the scheduler again and again until it is done, and others may act on
the scheduler in between.  What it has achieved stays that way: when it is done, nothing
waits and nothing runs, and the scheduler stays as it is, whatever is called.
-/

namespace CodeSurvey
namespace Scheduler
namespace State

variable {s t : State p i o} {c : Coding i o}

/-!
# Stopping
-/

theorem Consistent.isTerminal (h : s.Consistent) (hqueue : s.queue = [])
    (hflights : s.inFlight = []) {r : Record i o} (hr : r ∈ s.records) :
    r.task.status.isTerminal = true := by
  cases hstatus : r.task.status with
  | pending =>
      have hmem := h.mem_queue.mpr ⟨r, hr, hstatus, rfl⟩
      rw [hqueue] at hmem
      cases hmem
  | running =>
      have hmem := h.mem_flights.mpr ⟨r, hr, hstatus, rfl⟩
      rw [hflights] at hmem
      cases hmem
  | completed => rfl
  | failed => rfl
  | cancelled => rfl

theorem Consistent.isDrained_iff (h : s.Consistent) :
    s.isDrained = true ↔ s.queue = [] ∧ s.inFlight = [] := by
  have hactive : s.active = s.inFlight.length := h.active_eq
  unfold isDrained
  rw [Bool.and_eq_true, List.isEmpty_iff, decide_eq_true_iff, hactive, List.length_eq_zero_iff]

/-- No task waits or runs any more, and another shutdown has nothing to do. -/
structure Ended (c : Coding i o) (s : State p i o) : Prop where
  queue : forall later, (s.run c later).queue = []
  active : forall later, (s.run c later).active = 0
  terminal : forall later r, r ∈ (s.run c later).records -> r.task.status.isTerminal = true
  /-- That a shutdown begins changes nothing. -/
  begun : forall later, (s.run c later).beginShutdown = .waking (s.run c later) () []
  /-- A shutdown does nothing but begin, and write that it is done. -/
  returns : forall (w : Type) (h : Host p i o w) (grace : Option Nat) (x : w),
    h.Stepwise c -> (exists later, h.state x = s.run c later) ->
      Shutdown.start h grace x =
        (h.write (h.call x (·.beginShutdown)).1 [.info "scheduler stopped" []], .stopped)

theorem Closed.drained_follows (h : s.Closed) (hs : s.Consistent) (hflights : s.inFlight = [])
    (hst : Follows c s t) : t.isDrained = true := by
  rcases hst with ⟨later, rfl⟩
  rcases h.run (c := c) hs later with ⟨hclosed, hsublist⟩
  rw [hflights, List.sublist_nil] at hsublist
  exact (hs.run later).isDrained_iff.mpr ⟨hclosed.queue, hsublist⟩

theorem Closed.ended (h : s.Closed) (hs : s.Consistent) (hflights : s.inFlight = []) :
    s.Ended c where
  queue := fun later => (h.run hs later).1.queue
  active := by
    intro later
    have hdrained := h.drained_follows (c := c) hs hflights ⟨later, rfl⟩
    exact of_decide_eq_true (Bool.and_eq_true_iff.mp hdrained).2
  terminal := by
    intro later r hr
    have hdrained := h.drained_follows (c := c) hs hflights ⟨later, rfl⟩
    rcases (hs.run later).isDrained_iff.mp hdrained with ⟨hqueue, hflights⟩
    exact (hs.run later).isTerminal hqueue hflights hr
  begun := by
    intro later
    have hbegun := (h.run (c := c) hs later).1.shuttingDown
    unfold beginShutdown
    rw [if_pos hbegun]
  returns := by
    rintro w host grace x hstep ⟨later, hx⟩
    have hfollows : Follows c s (host.state (host.call x (·.beginShutdown)).1) := by
      have hcall := hstep.call x (·.beginShutdown) ⟨host.now x, .beginShutdown⟩ rfl
      rw [hx] at hcall
      exact Follows.trans ⟨later, rfl⟩ hcall
    have hdrained := h.drained_follows hs hflights hfollows
    unfold Shutdown.start
    simp only [Shutdown.look, Shutdown.stop]
    rw [if_pos hdrained, if_pos hdrained]

end State

/-!
# The stages of a shutdown
-/

namespace Shutdown

open State (Follows)

variable {h : Host p i o w} {c : Coding i o} {s t : State p i o}

inductive Goes (h : Host p i o w) (c : Coding i o) (grace : Option Nat) (x : w) :
    w -> Shutdown -> Prop where
  | start : Goes h c grace x (start h grace x).1 (start h grace x).2
  /-- Others have acted; then the shutdown looks again. -/
  | look (elapsed : Bool) (hgoes : Goes h c grace x y stage)
      (hothers : Follows c (h.state y) (h.state z)) :
      Goes h c grace x (look h elapsed z stage).1 (look h elapsed z stage).2

/-- What holds of the scheduler at a stage of a shutdown. -/
def Reached (s : State p i o) : Shutdown -> Prop
  | .waiting _ => s.shuttingDown = true
  | .stopping => s.Closed
  | .stopped => s.Closed ∧ s.inFlight = []

theorem shuttingDown_follows (hs : s.shuttingDown = true) (hst : Follows c s t) :
    t.shuttingDown = true := by
  rcases hst with ⟨ms, rfl⟩
  exact State.run_induction (motive := fun s => s.shuttingDown = true)
    (fun _ m h => State.shuttingDown_act c h m) hs ms

theorem retriesClosed_follows (hs : s.retriesClosed = true) (hst : Follows c s t) :
    t.retriesClosed = true := by
  rcases hst with ⟨ms, rfl⟩
  exact State.run_induction (motive := fun s => s.retriesClosed = true)
    (fun _ m h => State.retriesClosed_act c h m) hs ms

theorem Reached.shuttingDown {stage : Shutdown} (h : Reached s stage) :
    s.shuttingDown = true := by
  cases stage with
  | waiting grace => exact h
  | stopping => exact State.Closed.shuttingDown h
  | stopped => exact h.1.shuttingDown

theorem Reached.follows {stage : Shutdown} (h : Reached s stage) (hs : s.Consistent)
    (hst : Follows c s t) : Reached t stage := by
  cases stage with
  | waiting grace => exact shuttingDown_follows h hst
  | stopping =>
      rcases hst with ⟨ms, rfl⟩
      exact (State.Closed.run h hs ms).1
  | stopped =>
      rcases hst with ⟨ms, rfl⟩
      rcases h.1.run (c := c) hs ms with ⟨hclosed, hsublist⟩
      exact ⟨hclosed, List.sublist_nil.mp (h.2 ▸ hsublist)⟩

theorem reached_stop (hstep : h.Stepwise c) {x : w} (hclosed : (h.state x).Closed)
    (hx : (h.state x).Consistent) : Reached (h.state (stop h x).1) (stop h x).2 := by
  unfold stop
  split
  next hdrained =>
    rw [hstep.write]
    exact ⟨hclosed, (hx.isDrained_iff.mp hdrained).2⟩
  next => exact hclosed

theorem reached_endGrace (hstep : h.Stepwise c) (grace : Nat) {x : w}
    (hbegun : (h.state x).shuttingDown = true) (hx : (h.state x).Consistent) :
    Reached (h.state (endGrace h grace x).1) (endGrace h grace x).2 := by
  let y := (h.call x (·.closeRetries)).1
  let z := (h.call y (·.cancelAll (h.now y))).1
  have hclose : Follows c (h.state x).closeRetries.state (h.state y) :=
    hstep.called x (·.closeRetries) ⟨h.now x, .closeRetries⟩ rfl
  have hcancel : Follows c ((h.state y).cancelAll (h.now y)).state (h.state z) :=
    hstep.called y (·.cancelAll (h.now y)) ⟨h.now y, .cancelAll⟩ rfl
  have hy : (h.state y).Consistent := by
    have hclosed : (h.state x).closeRetries.state.Consistent := hx
    exact hclosed.follows hclose
  have hcancelled : Reached ((h.state y).cancelAll (h.now y)).state .stopping := by
    apply State.closed_cancelAll
    · exact shuttingDown_follows (s := (h.state x).closeRetries.state) hbegun hclose
    · exact retriesClosed_follows rfl hclose
  have hz : Reached (h.state z) .stopping := hcancelled.follows hy.cancelAll hcancel
  have hz' : (h.state z).Consistent := hy.cancelAll.follows hcancel
  unfold endGrace
  simp only
  apply reached_stop hstep
  · rw [hstep.write]
    exact hz
  · rw [hstep.write]
    exact hz'

theorem reached_look (hstep : h.Stepwise c) (elapsed : Bool) {x : w} {stage : Shutdown}
    (hreached : Reached (h.state x) stage) (hx : (h.state x).Consistent) :
    Reached (h.state (look h elapsed x stage).1) (look h elapsed x stage).2 := by
  cases stage with
  | waiting grace =>
      simp only [look]
      split
      next hdrained =>
        rcases hx.isDrained_iff.mp hdrained with ⟨hqueue, hflights⟩
        exact reached_stop hstep ⟨hreached, fun hne => absurd hflights hne, hqueue⟩ hx
      next =>
        split
        · exact reached_endGrace hstep grace hreached hx
        · exact hreached
  | stopping => exact reached_stop hstep hreached hx
  | stopped => exact hreached

theorem reached_start (hstep : h.Stepwise c) (grace : Option Nat) {x : w}
    (hx : (h.state x).Consistent) :
    Reached (h.state (start h grace x).1) (start h grace x).2 := by
  have hbegin := hstep.called x (·.beginShutdown) ⟨h.now x, .beginShutdown⟩ rfl
  have hbegun : ((h.state x).act c ⟨h.now x, .beginShutdown⟩).shuttingDown = true :=
    congrArg Controls.shuttingDown (State.controls_act c (h.state x) _)
  unfold start
  apply reached_look hstep
  · exact shuttingDown_follows hbegun hbegin
  · exact (hx.act _).follows hbegin

theorem Goes.reached {grace : Option Nat} {x y : w} {stage : Shutdown}
    (hgoes : Goes h c grace x y stage) (hstep : h.Stepwise c)
    (hx : (h.state x).Consistent) :
    Reached (h.state y) stage ∧ (h.state y).Consistent := by
  induction hgoes with
  | start => exact ⟨reached_start hstep grace hx, consistent_start hstep grace hx⟩
  | look elapsed _ hothers ih =>
      have hz := ih.2.follows hothers
      have hreached := ih.1.follows ih.2 hothers
      exact ⟨reached_look hstep elapsed hreached hz, consistent_look hstep elapsed _ hz⟩

end Shutdown

namespace State

variable {s : State p i o} {c : Coding i o}

/-!
# Runs with a shutdown in them
-/

/-- What an action brings about, and every action keeps, holds after all runs with that
action in them. -/
theorem run_of_mem (before after : State p i o -> Prop) {action : Action p i o}
    (hbefore : forall s m, before s -> before (s.act c m))
    (haction : forall s now, before s -> after (s.act c ⟨now, action⟩))
    (hafter : forall s m, after s -> after (s.act c m)) (hs : before s)
    {ms : List (Moment p i o)} (hmem : action ∈ ms.map Moment.action) :
    after (s.run c ms) := by
  induction ms generalizing s with
  | nil => cases hmem
  | cons m ms ih =>
      cases List.mem_cons.mp hmem with
      | inl heq =>
          rcases m with ⟨now, _⟩
          cases heq
          exact run_induction hafter (haction s now hs) ms
      | inr hmem => exact ih (hbefore s m hs) hmem

theorem Consistent.begun_run (h : s.Consistent) {ms : List (Moment p i o)}
    (hmem : Action.beginShutdown ∈ ms.map Moment.action) :
    (s.run c ms).Consistent ∧ (s.run c ms).shuttingDown = true := by
  apply run_of_mem Consistent (fun s => s.Consistent ∧ s.shuttingDown = true) _ _ _ h hmem
  · exact fun _ m hs => hs.act m
  · intro s now hs
    exact ⟨hs.act _, congrArg Controls.shuttingDown (controls_act c s _)⟩
  · exact fun _ m hs => ⟨hs.1.act m, shuttingDown_act c hs.2 m⟩

/-- A run in which a shutdown begins, its grace elapses, and what waits is cancelled. -/
theorem Consistent.closed_run (h : s.Consistent) {ms : List (Moment p i o)}
    (hms : [Action.beginShutdown, .closeRetries, .cancelAll].Sublist
      (ms.map Moment.action)) : (s.run c ms).Closed := by
  rcases List.cons_sublist_iff.mp hms with ⟨_, _, hmap, hbegin, hms⟩
  rcases List.map_eq_append_iff.mp hmap with ⟨first, _, rfl, rfl, rfl⟩
  rcases List.cons_sublist_iff.mp hms with ⟨_, _, hmap, hclose, hcancel⟩
  rcases List.map_eq_append_iff.mp hmap with ⟨second, third, rfl, rfl, rfl⟩
  rw [run_append, run_append]
  have hbegun := h.begun_run (c := c) hbegin
  have hclosed : ((s.run c first).run c second).Consistent ∧
      ((s.run c first).run c second).shuttingDown = true ∧
      ((s.run c first).run c second).retriesClosed = true := by
    apply run_of_mem (fun s => s.Consistent ∧ s.shuttingDown = true)
      (fun s => s.Consistent ∧ s.shuttingDown = true ∧ s.retriesClosed = true)
      _ _ _ hbegun hclose
    · exact fun _ m hs => ⟨hs.1.act m, shuttingDown_act c hs.2 m⟩
    · exact fun _ _ hs => ⟨hs.1, hs.2, rfl⟩
    · exact fun _ m hs => ⟨hs.1.act m, shuttingDown_act c hs.2.1 m,
        retriesClosed_act c hs.2.2 m⟩
  have hcancelled : (((s.run c first).run c second).run c third).Consistent ∧
      (((s.run c first).run c second).run c third).Closed := by
    apply run_of_mem
      (fun s => s.Consistent ∧ s.shuttingDown = true ∧ s.retriesClosed = true)
      (fun s => s.Consistent ∧ s.Closed) _ _ _ hclosed
      (List.singleton_sublist.mp hcancel)
    · exact fun _ m hs => ⟨hs.1.act m, shuttingDown_act c hs.2.1 m,
        retriesClosed_act c hs.2.2 m⟩
    · exact fun s now hs => ⟨hs.1.act _, s.closed_cancelAll now hs.2.1 hs.2.2⟩
    · exact fun _ m hs => ⟨hs.1.act m, hs.2.act hs.1 m⟩
  exact hcancelled.2

/-- Whatever happened to a scheduler before.  From the first shutdown on, submissions are
refused.  Once the grace of a shutdown has elapsed and what waited was cancelled, the
attempts in flight are the last ones.  The same holds of a shutdown as a whole, on
whatever host and with whatever happens while it waits; when it is done, no task is left
that could change, and another shutdown is done at once. -/
theorem shutdown_final (c : Coding i o) (options : Options) (cacheOptions : Cache.Options)
    {ids : IdSource} (hids : Function.Injective ids.nth) (ms : List (Moment p i o)) :
    let s := (new options cacheOptions ids).state.run c ms
    (Action.beginShutdown ∈ ms.map Moment.action -> s.Refuses c) ∧
      ([Action.beginShutdown, .closeRetries, .cancelAll].Sublist (ms.map Moment.action) ->
        s.WoundDown c) ∧
      forall (w : Type) (h : Host p i o w) (grace : Option Nat) (x y : w),
        h.Stepwise c -> h.state x = s ->
          (forall stage, Shutdown.Goes h c grace x y stage -> (h.state y).Refuses c) ∧
          (Shutdown.Goes h c grace x y .stopping -> (h.state y).WoundDown c) ∧
          (Shutdown.Goes h c grace x y .stopped ->
            (h.state y).WoundDown c ∧ (h.state y).Ended c) := by
  intro s
  have hnew : (new options cacheOptions ids : Log.Outcome (State p i o) Unit).state.Consistent :=
    consistent_new options cacheOptions hids
  have hs : s.Consistent := hnew.run ms
  refine ⟨?_, ?_, ?_⟩
  · intro hbegin
    exact refuses (hnew.begun_run hbegin).2
  · intro hclose
    exact (hnew.closed_run hclose).woundDown hs
  · intro w h grace x y hstep hx
    rw [← hx] at hs
    refine ⟨?_, ?_, ?_⟩
    · intro stage hgoes
      exact refuses (hgoes.reached hstep hs).1.shuttingDown
    · intro hgoes
      rcases hgoes.reached hstep hs with ⟨hclosed, hy⟩
      exact Closed.woundDown hclosed hy
    · intro hgoes
      rcases hgoes.reached hstep hs with ⟨⟨hclosed, hflights⟩, hy⟩
      exact ⟨hclosed.woundDown hy, hclosed.ended hy hflights⟩

/-- Two tasks, of which one waits and the other fails behind the grace, when it could have
been tried again. -/
theorem shutdown_final_given_up :
    let c : Coding String String := { input := fun _ => none, output := .text }
    let ms : List (Moment Unit String String) :=
      [⟨0, .setProcessor ()⟩, ⟨1, .submit "a" 0⟩, ⟨1, .dispatch⟩, ⟨2, .pause⟩,
        ⟨2, .submit "b" 0⟩]
    let closing : List (Moment Unit String String) :=
      [⟨3, .beginShutdown⟩, ⟨4, .closeRetries⟩, ⟨4, .cancelAll⟩]
    let failing : List (Moment Unit String String) :=
      [⟨5, .finish 0 (.error (.execution "no")) .zero⟩]
    let s := (new (.forWorkers 1) .default (.sequential "task")).state.run c ms
    let x : Alone Unit String String := ⟨s, 3, []⟩
    let y := Shutdown.start Alone.host (some 0) x
    let z := Shutdown.look Alone.host true ⟨y.1.state.run c failing, 5, []⟩ y.2
    ((s.run c closing).Refuses c ∧ (s.run c closing).WoundDown c ∧
        (s.run c closing).records.map (·.task.status) = [.running, .cancelled]) ∧
      (y.2 = .stopping ∧ y.1.state.WoundDown c) ∧ z.2 = .stopped ∧ z.1.state.Ended c ∧
        z.1.state.records.map (·.task.status) = [.cancelled, .cancelled] := by
  intro c ms closing failing s x y z
  have hids := injective_sequential "task"
  have hclosing := shutdown_final c (.forWorkers 1) .default hids (ms ++ closing)
  have hshutdown := (shutdown_final c (.forWorkers 1) .default hids ms).2.2 _ Alone.host (some 0) x
  have hstep := Alone.stepwise_host (p := Unit) c
  have hy : y.2 = .stopping := by decide +kernel
  have hz : z.2 = .stopped := by decide +kernel
  have hgoes : Shutdown.Goes Alone.host c (some 0) x y.1 y.2 := .start
  have hgone : Shutdown.Goes Alone.host c (some 0) x z.1 z.2 := .look true hgoes ⟨failing, rfl⟩
  rw [run_append] at hclosing
  refine ⟨⟨?_, ?_, by decide +kernel⟩, ⟨hy, ?_⟩, hz, ?_, by decide +kernel⟩
  · exact hclosing.1 (by simp [ms, closing])
  · exact hclosing.2.1
      (List.sublist_append_right (ms.map Moment.action) (closing.map Moment.action))
  · exact (hshutdown y.1 hstep rfl).2.1 (hy ▸ hgoes)
  · exact ((hshutdown z.1 hstep rfl).2.2 (hz ▸ hgone)).2

end State
end Scheduler
end CodeSurvey
