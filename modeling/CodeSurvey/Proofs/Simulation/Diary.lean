import CodeSurvey.Proofs.Scheduler.HostRefinement
import CodeSurvey.Proofs.Simulation.Flights

/-!
# A diary of a simulation

A diary keeps the timeline of a world beside it.  It writes down what each call makes the
scheduler emit, without regard to whether it is delivered, and when a processor is called.
Everything that is done in the world is done in the diary's world, so that the timeline is
that of the world.
-/

namespace CodeSurvey
namespace Simulation

open Scheduler (Attempt Batch Event Host Mute Shutdown State TaskId)

/-- The events that a call makes the scheduler emit, at once and in starting tasks. -/
def World.emission (w : World) (change : Call a) : List Event :=
  let c := change w.scheduler
  if c.dispatches then c.state.events ++ (c.state.deliver.dispatch w.now).1.events
  else c.state.events

/-- The world after a call has changed the scheduler and its events were delivered. -/
def World.changed (w : World) (change : Call a) : World :=
  let c := change w.scheduler
  ({ w with scheduler := c.state }.write c.log).deliver

/-- The world after a call that may wake those who wait. -/
def World.woken (w : World) (wakes : Bool) : World :=
  if wakes then w.wakeJobs else w

structure Diary where
  world : World
  timeline : Timeline

namespace Diary

def call (x : Diary) (change : Call a) : Diary × a :=
  let called := x.world.call change
  ({ world := called.1
     timeline := x.timeline ++ Timeline.ofEvents (x.world.emission change) }, called.2)

def write (x : Diary) (entries : List Log.Entry) : Diary :=
  { x with world := x.world.write entries }

def host : Host Processor Json.Value Json.Value Diary :=
  { state := fun x => x.world.scheduler, now := fun x => x.world.now, call, write }

theorem mirrors_host : host.Mirrors World.host world where
  state := fun _ => rfl
  now := fun _ => rfl
  write := fun _ _ => rfl
  call := fun _ _ => rfl

/-- What everybody was told is what was emitted, and nothing is left to tell. -/
structure Sound (x : Diary) : Prop where
  heard : x.world.Heard x.timeline
  flying : x.world.Flying x.timeline
  delivered : x.world.scheduler.events = []

variable {x : Diary} {w : World} {t : Timeline}

theorem Sound.frame (h : x.Sound) {w' : World} (hframe : World.Frame x.world w') :
    Sound { x with world := w' } where
  heard := h.heard.frame hframe
  flying := h.flying.frame hframe
  delivered := by
    rw [hframe.scheduler]
    exact h.delivered

/-!
# Calls
-/

theorem flying_deliver (hregistered : w.Registered) (h : w.Flying t) : w.deliver.Flying t := by
  rw [World.deliver_eq hregistered]
  exact h.congr rfl (fun f hf => ⟨f, hf, rfl, rfl⟩) rfl

theorem scheduler_deliver (hregistered : w.Registered) :
    w.deliver.scheduler = w.scheduler.deliver ∧ w.deliver.now = w.now := by
  rw [World.deliver_eq hregistered]
  exact ⟨rfl, rfl⟩

/-- A dispatch delivers the starts that it tells of before it puts the attempts on their
way. -/
theorem Sound.dispatch (h : x.Sound) :
    Sound { world := x.world.dispatch World.deliver
            timeline := x.timeline ++
              Timeline.ofEvents (x.world.scheduler.dispatch x.world.now).1.events } := by
  rcases x.world.scheduler.exists_events_dispatch x.world.now with ⟨starts, hevents, hids⟩
  rw [h.delivered, List.nil_append] at hevents
  let w : World := { x.world with scheduler := (x.world.scheduler.dispatch x.world.now).1 }
  have hheard : w.Heard x.timeline := h.heard.congr rfl rfl rfl rfl
  have hflying : w.Flying x.timeline :=
    h.flying.congr rfl (fun f hf => ⟨f, hf, rfl, rfl⟩) rfl
  unfold World.dispatch
  simp only
  split
  next hempty =>
    have hnone : starts = [] := by
      rw [List.isEmpty_iff.mp hempty] at hids
      exact List.map_eq_nil_iff.mp hids.symm
    have hsame : x.timeline ++ Timeline.ofEvents
        (x.world.scheduler.dispatch x.world.now).1.events = x.timeline := by
      rw [hevents, hnone]
      exact List.append_nil _
    rw [hsame]
    refine ⟨hheard, hflying, ?_⟩
    rw [hevents, hnone]
    rfl
  next =>
    have hdelivered := hheard.deliver
    rcases w.deliver.frame_wakeJobs with ⟨hwoken, _⟩
    rcases w.deliver.wakeJobs.launch_same (x.world.scheduler.dispatch x.world.now).2 with
      ⟨hregistry, hobservers, hreport⟩
    constructor
    case heard =>
      exact (hdelivered.frame hwoken).congr hregistry hobservers (congrArg _ hreport)
        (congrArg _ hreport)
    case flying =>
      rw [hevents]
      exact ((flying_deliver hheard.registered hflying).frame hwoken).launch hids
    case delivered =>
      show (World.launch _ _).scheduler.events = []
      rw [World.scheduler_launch, hwoken.scheduler,
        (scheduler_deliver hheard.registered).1]
      rfl

theorem Sound.changed (h : x.Sound) {change : Call a} (hmute : Mute x.world.scheduler change) :
    Sound { world := x.world.changed change
            timeline := x.timeline ++ Timeline.ofEvents (change x.world.scheduler).state.events } ∧
      (x.world.changed change).scheduler = (change x.world.scheduler).state.deliver ∧
      (x.world.changed change).now = x.world.now := by
  rcases hmute with ⟨told, hevents, hunstarted⟩
  rw [h.delivered, List.nil_append] at hevents
  let c := change x.world.scheduler
  let w : World := { x.world with scheduler := c.state }.write c.log
  have hheard : w.Heard x.timeline := h.heard.congr rfl rfl rfl rfl
  have hflying : w.Flying x.timeline :=
    h.flying.congr rfl (fun f hf => ⟨f, hf, rfl, rfl⟩) rfl
  have hscheduler := scheduler_deliver hheard.registered
  refine ⟨?_, hscheduler⟩
  constructor
  case heard => exact hheard.deliver
  case flying =>
    rw [hevents]
    exact (flying_deliver hheard.registered hflying).emit hunstarted
  case delivered =>
    show w.deliver.scheduler.events = []
    rw [hscheduler.1]
    rfl

theorem frame_woken (w : World) (wakes : Bool) :
    World.Frame w (w.woken wakes) ∧ (w.woken wakes).now = w.now := by
  cases wakes with
  | true => exact w.frame_wakeJobs
  | false => exact ⟨World.Frame.refl w, rfl⟩

theorem Sound.call (h : x.Sound) (change : Call a) (hmute : Mute x.world.scheduler change) :
    (x.call change).1.Sound := by
  rcases h.changed hmute with ⟨hchanged, hscheduler, hnow⟩
  let c := change x.world.scheduler
  let w := (x.world.changed change).woken c.wakes
  rcases frame_woken (x.world.changed change) c.wakes with ⟨hframe, hwoken⟩
  have hsound : Sound { world := w, timeline := x.timeline ++ Timeline.ofEvents c.state.events } :=
    hchanged.frame hframe
  have hcalled : (x.call change).1 =
      { world := if c.dispatches then w.dispatch World.deliver else w
        timeline := x.timeline ++ Timeline.ofEvents (x.world.emission change) } := rfl
  have hemission : x.world.emission change =
      if c.dispatches then c.state.events ++ (c.state.deliver.dispatch x.world.now).1.events
      else c.state.events := rfl
  rw [hcalled, hemission]
  cases c.dispatches with
  | true =>
      have hdispatched := hsound.dispatch
      rw [hwoken, hnow, hframe.scheduler, hscheduler] at hdispatched
      rw [if_pos rfl, if_pos rfl]
      unfold Timeline.ofEvents
      rw [List.map_append, ← List.append_assoc]
      exact hdispatched
  | false => exact hsound

theorem keeps_host : host.Keeps Sound where
  write := fun entries h => h.frame (World.frame_write _ entries)
  call := fun change h hmute => h.call change hmute

end Diary
end Simulation
end CodeSurvey
