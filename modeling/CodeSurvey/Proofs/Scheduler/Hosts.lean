import CodeSurvey.Proofs.Scheduler.Consistency
import CodeSurvey.Simulation.World

/-!
# Batches and shutdowns as runs

A batch and a shutdown make many calls of the scheduler, between which its host may do
more: start tasks, deliver events, and obey the observers that it delivers them to.  All
of that is a sequence of actions, so what holds after every run holds in between too.
-/

namespace CodeSurvey
namespace Scheduler

namespace State

/-- One state comes out of another by actions. -/
def Follows (c : Coding i o) (s t : State p i o) : Prop :=
  exists ms, t = s.run c ms

variable {c : Coding i o} {s t u : State p i o}

theorem Follows.refl (c : Coding i o) (s : State p i o) : Follows c s s :=
  ⟨[], rfl⟩

theorem Follows.trans (hst : Follows c s t) (htu : Follows c t u) : Follows c s u := by
  rcases hst with ⟨ms, rfl⟩
  rcases htu with ⟨rest, rfl⟩
  exact ⟨ms ++ rest, (run_append c s ms rest).symm⟩

theorem follows_act (c : Coding i o) (s : State p i o) (m : Moment p i o) :
    Follows c s (s.act c m) :=
  ⟨[m], rfl⟩

end State

theorem State.Consistent.follows {c : Coding i o} {s t : State p i o} (h : s.Consistent)
    (hst : State.Follows c s t) : t.Consistent := by
  rcases hst with ⟨ms, rfl⟩
  exact h.run ms

open State (Follows)

/-- The host does nothing to its scheduler but actions, and a call comes before all else
that the host does on its occasion. -/
structure Host.Stepwise (h : Host p i o w) (c : Coding i o) : Prop where
  write : forall x entries, h.state (h.write x entries) = h.state x
  called : forall {a : Type} (x : w) (call : Call p i o a) (m : Moment p i o),
    (call (h.state x)).state = (h.state x).act c m ->
      Follows c ((h.state x).act c m) (h.state (h.call x call).1)

/-- A call gives the result of the change that it makes. -/
def Host.Answers (h : Host p i o w) : Prop :=
  forall {a : Type} (x : w) (call : Call p i o a), (h.call x call).2 = (call (h.state x)).result

variable {h : Host p i o w} {c : Coding i o}

theorem Host.Stepwise.call (hstep : h.Stepwise c) (x : w) (call : Call p i o a)
    (m : Moment p i o) (hcall : (call (h.state x)).state = (h.state x).act c m) :
    Follows c (h.state x) (h.state (h.call x call).1) :=
  (State.follows_act c _ m).trans (hstep.called x call m hcall)

/-!
# Batches
-/

namespace Batch

theorem fst_cancelEach_cons (h : Host p i o w) (id : TaskId) (ids : List TaskId) (x : w) :
    (cancelEach h (id :: ids) x).1 =
      (cancelEach h ids (h.call x (·.cancel (h.now x) id)).1).1 := by
  have hfold (ids : List TaskId) (x : w) : (cancelEach h ids x).1 =
      ids.foldl (fun x id => (h.call x (·.cancel (h.now x) id)).1) x :=
    (List.foldl_hom Prod.fst fun _ _ => rfl).symm
  rw [hfold, hfold, List.foldl_cons]

end Batch

/-!
# Shutdowns
-/

namespace Shutdown

theorem state_stop (hstep : h.Stepwise c) (x : w) :
    h.state (stop h x).1 = h.state x := by
  unfold stop
  split
  · exact hstep.write _ _
  · rfl

theorem follows_endGrace (hstep : h.Stepwise c) (grace : Nat) (x : w) :
    Follows c (h.state x) (h.state (endGrace h grace x).1) := by
  have hclose := hstep.call x (·.closeRetries) ⟨h.now x, .closeRetries⟩ rfl
  let y := (h.call x (·.closeRetries)).1
  have hcancel := hstep.call y (·.cancelAll (h.now y)) ⟨h.now y, .cancelAll⟩ rfl
  unfold endGrace
  simp only
  rw [state_stop hstep, hstep.write]
  exact hclose.trans hcancel

/-- However often those who wait for a shutdown look at it, what they do is a run. -/
theorem follows_look (hstep : h.Stepwise c) (elapsed : Bool) (x : w)
    (shutdown : Shutdown) :
    Follows c (h.state x) (h.state (look h elapsed x shutdown).1) := by
  cases shutdown with
  | waiting grace =>
      simp only [look]
      split
      · rw [state_stop hstep]
        exact Follows.refl c _
      · split
        · exact follows_endGrace hstep grace x
        · exact Follows.refl c _
  | stopping =>
      simp only [look]
      rw [state_stop hstep]
      exact Follows.refl c _
  | stopped => exact Follows.refl c _

theorem follows_start (hstep : h.Stepwise c) (grace : Option Nat) (x : w) :
    Follows c (h.state x) (h.state (start h grace x).1) :=
  (hstep.call x (·.beginShutdown) ⟨h.now x, .beginShutdown⟩ rfl).trans
    (follows_look hstep _ _ _)

theorem consistent_start (hstep : h.Stepwise c) (grace : Option Nat) {x : w}
    (hx : (h.state x).Consistent) : (h.state (start h grace x).1).Consistent :=
  hx.follows (follows_start hstep grace x)

theorem consistent_look (hstep : h.Stepwise c) (elapsed : Bool) {x : w}
    (shutdown : Shutdown) (hx : (h.state x).Consistent) :
    (h.state (look h elapsed x shutdown).1).Consistent :=
  hx.follows (follows_look hstep elapsed x shutdown)

end Shutdown

/-!
# A scheduler on its own
-/

theorem State.follows_perform (s : State p i o) (now : Int) (call : Call p i o a)
    (m : Moment p i o) (hcall : (call s).state = s.act c m) :
    Follows c (s.act c m) (s.perform now call).state := by
  unfold State.perform
  simp only
  split
  · rw [hcall]
    exact follows_act c _ ⟨now, .dispatch⟩
  · rw [hcall]
    exact Follows.refl c _

theorem Alone.stepwise_host (c : Coding i o) :
    (host : Host p i o (Alone p i o)).Stepwise c where
  write := fun _ _ => rfl
  called := fun x call m hcall => x.state.follows_perform x.now call m hcall

theorem Alone.answers_host : (host : Host p i o (Alone p i o)).Answers := by
  intro a x call
  show (x.state.perform x.now call).result = _
  unfold State.perform
  simp only
  split
  · rfl
  · rfl

end Scheduler

/-!
# The world of a simulation
-/

namespace Simulation
namespace World

open Scheduler (Moment)
open Scheduler.State (Follows follows_act)

/-- All that is done in the world to its scheduler are actions. -/
def Leads (w w' : World) : Prop :=
  Follows coding w.scheduler w'.scheduler

theorem follows_run (w : World) (ms : List (Moment Processor Json.Value Json.Value)) :
    Follows coding (host.state w)
      (host.state { w with scheduler := w.scheduler.run coding ms }) :=
  ⟨ms, rfl⟩

theorem scheduler_wakeJob (w : World) (number : Nat) :
    (w.wakeJob number).scheduler = w.scheduler := by
  unfold wakeJob
  split
  · rfl
  · rfl
  · split <;> rfl

theorem scheduler_wakeJobs (w : World) : w.wakeJobs.scheduler = w.scheduler := by
  unfold wakeJobs
  generalize List.range w.jobs.length = numbers
  induction numbers generalizing w with
  | nil => rfl
  | cons number numbers ih => exact (ih _).trans (scheduler_wakeJob w number)

theorem scheduler_launch (w : World)
    (attempts : List (Scheduler.Attempt Processor Json.Value)) :
    (w.launch attempts).scheduler = w.scheduler := by
  unfold launch
  induction attempts generalizing w with
  | nil => rfl
  | cons attempt attempts ih => exact ih _

theorem leads_dispatch {deliver : World -> World} (hdeliver : forall w, Leads w (deliver w))
    (w : World) : Leads w (w.dispatch deliver) := by
  have hdispatch : Follows coding w.scheduler (w.scheduler.dispatch w.now).1 :=
    follows_act coding w.scheduler ⟨w.now, .dispatch⟩
  unfold dispatch Leads
  simp only
  split
  · exact hdispatch
  · rw [scheduler_launch, scheduler_wakeJobs]
    exact hdispatch.trans (hdeliver { w with scheduler := (w.scheduler.dispatch w.now).1 })

theorem follows_perform {deliver : World -> World}
    (hdeliver : forall w, Leads w (deliver w)) (w : World) (change : Call a)
    (m : Moment Processor Json.Value Json.Value)
    (hchange : (change w.scheduler).state = w.scheduler.act coding m) :
    Follows coding (w.scheduler.act coding m) (perform deliver w change).1.scheduler := by
  let changed := { w with scheduler := (change w.scheduler).state }.write
    (change w.scheduler).log
  have hchanged : changed.scheduler = w.scheduler.act coding m := hchange
  have hdelivered : Leads changed (deliver changed) := hdeliver changed
  have hwoken : Leads changed
      (if (change w.scheduler).wakes then (deliver changed).wakeJobs else deliver changed) := by
    split
    · unfold Leads
      rw [scheduler_wakeJobs]
      exact hdelivered
    · exact hdelivered
  rw [← hchanged]
  unfold perform
  simp only
  split
  · exact hwoken.trans (leads_dispatch hdeliver _)
  · exact hwoken

theorem leads_perform {deliver : World -> World} (hdeliver : forall w, Leads w (deliver w))
    (w : World) (change : Call a) (m : Moment Processor Json.Value Json.Value)
    (hchange : (change w.scheduler).state = w.scheduler.act coding m) :
    Leads w (perform deliver w change).1 :=
  (follows_act coding w.scheduler m).trans (follows_perform hdeliver w change m hchange)

theorem leads_obey (w : World) (token : Scheduler.Token) (command : Command) :
    Leads w (w.obey token command).1 := by
  have hid : forall w, Leads w (id w) := fun w => Follows.refl coding w.scheduler
  cases command with
  | add input priority =>
      exact leads_perform hid w (·.submit coding w.now input priority)
        ⟨w.now, .submit input priority⟩ rfl
  | cancel target =>
      exact leads_perform hid w (·.cancel w.now target) ⟨w.now, .cancel target⟩ rfl
  | cancelAll => exact leads_perform hid w (·.cancelAll w.now) ⟨w.now, .cancelAll⟩ rfl
  | pause => exact leads_perform hid w (·.pause) ⟨w.now, .pause⟩ rfl
  | resume => exact leads_perform hid w (·.resume) ⟨w.now, .resume⟩ rfl
  | clearFinished =>
      exact leads_perform hid w (·.clearFinished) ⟨w.now, .clearFinished⟩ rfl
  | status target => exact hid w
  | stats => exact hid w
  | unsubscribe => exact hid w

theorem leads_react (number : Nat) (token : Scheduler.Token) (e : Scheduler.Event)
    (reactions : List Reaction) (w : World) :
    Leads w (react number token e reactions w).1 := by
  induction reactions generalizing w with
  | nil => exact Follows.refl coding w.scheduler
  | cons r rest ih =>
      unfold react
      split
      · exact (leads_obey w token r.command).trans (ih _)
      · exact ih w

theorem leads_tell (w : World) (listener : Listener) (e : Scheduler.Event) :
    Leads w (w.tell listener e) := by
  cases listener with
  | recorder => exact Follows.refl coding w.scheduler
  | observer number =>
      simp only [tell]
      split
      next observer _ =>
        exact leads_react number observer.token e observer.reactions
          (w.note (.saw number e))
      next => exact Follows.refl coding w.scheduler

theorem leads_broadcast (registry : Scheduler.Registry Listener) (w : World)
    (e : Scheduler.Event) : Leads w (registry.broadcast tell w e) := by
  unfold Scheduler.Registry.broadcast
  generalize registry.observers = observers
  induction observers generalizing w with
  | nil => exact Follows.refl coding w.scheduler
  | cons observer observers ih => exact (leads_tell w observer.2 e).trans (ih _)

theorem leads_foldl_broadcast (registry : Scheduler.Registry Listener)
    (events : List Scheduler.Event) (w : World) :
    Leads w (events.foldl (registry.broadcast tell) w) := by
  induction events generalizing w with
  | nil => exact Follows.refl coding w.scheduler
  | cons e events ih => exact (leads_broadcast registry w e).trans (ih _)

theorem leads_deliverRounds (rounds : Nat) (w : World) :
    Leads w (w.deliverRounds rounds) := by
  induction rounds generalizing w with
  | zero => exact Follows.refl coding w.scheduler
  | succ rounds ih =>
      unfold deliverRounds
      split
      · exact Follows.refl coding w.scheduler
      · have hdeliver : Follows coding w.scheduler w.scheduler.deliver :=
          follows_act coding w.scheduler ⟨w.now, .deliver⟩
        exact (hdeliver.trans (leads_foldl_broadcast w.registry w.scheduler.events
          { w with scheduler := w.scheduler.deliver })).trans (ih _)

/-- Whatever the observers do, a call from outside is a run. -/
theorem stepwise_host : host.Stepwise coding where
  write := fun _ _ => rfl
  called := fun w change m hchange =>
    follows_perform (fun w => leads_deliverRounds _ w) w change m hchange

theorem answers_host : host.Answers :=
  fun _ _ => rfl

end World
end Simulation
end CodeSurvey
