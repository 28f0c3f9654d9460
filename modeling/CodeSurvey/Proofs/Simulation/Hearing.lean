import CodeSurvey.Proofs.Simulation.Diary

/-!
# What observers hear in a simulation

A simulation is an interleaving of calls from outside, of observers that come and go, and
of turns, in which attempts are carried out, their outcomes are handled, and batches and
shutdowns go on.  After each of these steps every listener has heard exactly what was
emitted while it listened.
-/

namespace CodeSurvey
namespace Simulation

open Scheduler (Attempt Batch Event Host Mute Shutdown State TaskId mute_of_act)

/-!
# Steps
-/

inductive Operation where
  | submit (input : Json.Value) (priority : Int)
  | cancel (id : TaskId)
  | cancelAll
  | pause
  | resume
  | configure (options : Scheduler.Options)
  | setScript (script : Script)
  | clearFinished
  | clearCache

inductive Step where
  /-- Somebody begins to listen, and does nothing else. -/
  | subscribe (name : String)
  | unsubscribe (observer : Nat)
  | operate (operation : Operation)
  /-- A batch, a drain or a shutdown begins. -/
  | begin (stage : Stage)
  /-- The next turn is taken, or the clock moves on to the next timer before an instant. -/
  | next (bound : Int)
  | setClock (now : Int)

namespace World

def operate (w : World) : Operation -> World
  | .submit input priority => (w.call (·.submit coding w.now input priority)).1
  | .cancel id => (w.call (·.cancel w.now id)).1
  | .cancelAll => (w.call (·.cancelAll w.now)).1
  | .pause => (w.call (·.pause)).1
  | .resume => (w.call (·.resume)).1
  | .configure options => (w.call (·.configure options)).1
  | .setScript script => w.setScript script
  | .clearFinished => (w.call (·.clearFinished)).1
  | .clearCache => (w.call (·.clearCache)).1

def step (w : World) : Step -> World
  | .subscribe name => (w.subscribe name []).1
  | .unsubscribe observer => (w.unsubscribe observer).1
  | .operate operation => w.operate operation
  | .begin stage => (w.startJob stage).1
  | .next bound => (w.next? bound).getD w
  | .setClock now => { w with now }

def steps (w : World) (ss : List Step) : World :=
  ss.foldl step w

def heard (w : World) : Listener -> List Event
  | .recorder => w.report.events.map Prod.snd
  | .observer number => w.report.notes.filterMap fun
    | .saw n e => if n = number then some e else none
    | .called _ _ _ => none

/-- A new world, where a recorder listens from the start, or nobody does. -/
def opened (recorded : Bool) (options : Scheduler.Options) (cacheOptions : Cache.Options)
    (ids : Scheduler.IdSource) (now : Int) : World :=
  let w := World.new options cacheOptions ids now
  if recorded then w else { w with registry := .empty }

end World

/-!
# Steps in a diary
-/

namespace Diary

def operate (x : Diary) : Operation -> Diary
  | .submit input priority => (x.call (·.submit coding x.world.now input priority)).1
  | .cancel id => (x.call (·.cancel x.world.now id)).1
  | .cancelAll => (x.call (·.cancelAll x.world.now)).1
  | .pause => (x.call (·.pause)).1
  | .resume => (x.call (·.resume)).1
  | .configure options => (x.call (·.configure options)).1
  | .setScript script =>
      let processor : Processor := { number := x.world.nextProcessor, script }
      let world := { x.world with nextProcessor := x.world.nextProcessor + 1 }
      (call { x with world } (·.setProcessor processor)).1
  | .clearFinished => (x.call (·.clearFinished)).1
  | .clearCache => (x.call (·.clearCache)).1

def finishFlight (x : Diary) (f : Flight) (found : Except Scheduler.Setback Json.Value) :
    Diary :=
  let elapsed := Time.Span.ofMillis (x.world.now - f.since).toNat
  let world := { x.world with flights := x.world.flights.filter fun y => y.number ≠ f.number }
  let outcome := f.attempt.outcome found
  (call { x with world } (·.finishAndStore coding world.now f.attempt.id outcome elapsed)).1

/-- What a job does when it is its turn, as far as the scheduler is concerned. -/
def advance (x : Diary) : Stage -> Diary
  | .submitting inputs => (Batch.submit host coding inputs x).1
  | .closing grace => (Shutdown.start host grace x).1
  | .shutdown s elapsed => (Shutdown.look host elapsed x s).1
  | _ => x

/-- The timeline after a turn. -/
def timelineAfter (x : Diary) : Turn -> Timeline
  | .call number =>
      match x.world.flight? number with
      | some f => x.timeline ++ [.called f]
      | none => x.timeline
  | .finish number found =>
      match x.world.flight? number with
      | some f => (x.finishFlight f found).timeline
      | none => x.timeline
  | .job number =>
      match x.world.jobs[number]? with
      | some job => (x.advance job.stage).timeline
      | none => x.timeline
  | .start _ | .wake _ => x.timeline

def take (x : Diary) (turn : Turn) : Diary :=
  { world := x.world.take turn, timeline := x.timelineAfter turn }

def next (x : Diary) (bound : Int) : Diary :=
  match x.world.turns with
  | turn :: rest => take { x with world := { x.world with turns := rest } } turn
  | [] => { x with world := (x.world.next? bound).getD x.world }

def step (x : Diary) : Step -> Diary
  | .subscribe name =>
      { world := (x.world.subscribe name []).1
        timeline := x.timeline ++ [.subscribed (.observer x.world.observers.length)] }
  | .unsubscribe observer =>
      { world := (x.world.unsubscribe observer).1
        timeline := x.timeline ++ [.unsubscribed (.observer observer)] }
  | .operate operation => x.operate operation
  | .begin stage => { x with world := (x.world.startJob stage).1 }
  | .next bound => x.next bound
  | .setClock now => { x with world := { x.world with now } }

def steps (x : Diary) (ss : List Step) : Diary :=
  ss.foldl step x

def opened (recorded : Bool) (options : Scheduler.Options) (cacheOptions : Cache.Options)
    (ids : Scheduler.IdSource) (now : Int) : Diary :=
  { world := World.opened recorded options cacheOptions ids now
    timeline := if recorded then [.subscribed .recorder] else [] }

variable {x : Diary}

theorem world_operate (x : Diary) (operation : Operation) :
    (x.operate operation).world = x.world.operate operation := by
  cases operation with
  | _ => rfl

theorem world_next (x : Diary) (bound : Int) :
    (x.next bound).world = (x.world.next? bound).getD x.world := by
  unfold next World.next?
  cases x.world.turns with
  | nil => rfl
  | cons turn rest => rfl

theorem world_step (x : Diary) (s : Step) : (x.step s).world = x.world.step s := by
  cases s with
  | operate operation => exact world_operate x operation
  | next bound => exact world_next x bound
  | _ => rfl

theorem world_steps (x : Diary) (ss : List Step) : (x.steps ss).world = x.world.steps ss :=
  (List.foldl_hom world fun x s => (world_step x s).symm).symm

/-!
# Turns
-/

theorem Sound.operate (h : x.Sound) (operation : Operation) : (x.operate operation).Sound := by
  let now := x.world.now
  cases operation with
  | submit input priority =>
      exact h.call _ (mute_of_act coding (m := ⟨now, .submit input priority⟩) rfl nofun nofun)
  | cancel id => exact h.call _ (mute_of_act coding (m := ⟨now, .cancel id⟩) rfl nofun nofun)
  | cancelAll => exact h.call _ (mute_of_act coding (m := ⟨now, .cancelAll⟩) rfl nofun nofun)
  | pause => exact h.call _ (mute_of_act coding (m := ⟨now, .pause⟩) rfl nofun nofun)
  | resume => exact h.call _ (mute_of_act coding (m := ⟨now, .resume⟩) rfl nofun nofun)
  | configure options =>
      exact h.call _ (mute_of_act coding (m := ⟨now, .configure options⟩) rfl nofun nofun)
  | setScript script =>
      let processor : Processor := { number := x.world.nextProcessor, script }
      let world := { x.world with nextProcessor := x.world.nextProcessor + 1 }
      have hframe : World.Frame x.world world := World.frame_of_eq rfl rfl rfl rfl rfl rfl
      exact (h.frame hframe).call _
        (mute_of_act coding (m := ⟨now, .setProcessor processor⟩) rfl nofun nofun)
  | clearFinished =>
      exact h.call _ (mute_of_act coding (m := ⟨now, .clearFinished⟩) rfl nofun nofun)
  | clearCache =>
      exact h.call _ (mute_of_act coding (m := ⟨now, .clearCache⟩) rfl nofun nofun)

theorem Sound.finishFlight (h : x.Sound) (f : Flight)
    (found : Except Scheduler.Setback Json.Value) : (x.finishFlight f found).Sound := by
  let world := { x.world with flights := x.world.flights.filter fun y => y.number ≠ f.number }
  have hframe : World.Frame x.world world :=
    ⟨rfl, rfl, rfl, rfl, rfl, rfl, rfl,
      fun g hg => ⟨g, (List.mem_filter.mp hg).1, rfl, rfl⟩⟩
  exact (h.frame hframe).call _
    (Scheduler.mute_finishAndStore coding _ world.now f.attempt.id (f.attempt.outcome found) _)

/-- The processor of an attempt is called after its start was told. -/
theorem Sound.callProcessor (h : x.Sound) {f : Flight} (hf : f ∈ x.world.flights) :
    Sound { world := x.world.callProcessor f, timeline := x.timeline ++ [.called f] } := by
  let name := inputName f.attempt.input
  let counted := (x.world.countCall f.attempt.processor.number name).1
  have hcounted : Sound { world := counted, timeline := x.timeline ++ [.called f] } := by
    constructor
    case heard => exact (h.heard.called f).congr rfl rfl rfl rfl
    case flying =>
      have hstarts : Timeline.starts (x.timeline ++ [.called f]) = x.timeline.starts := by
        rw [Timeline.starts_append]
        exact List.append_nil _
      constructor
      case count => rw [hstarts]; exact h.flying.count
      case flights => rw [hstarts]; exact h.flying.flights
      case called =>
        intro before f' after heq
        rcases List.append_eq_append_iff.mp heq with
          ⟨between, hbefore, hrest⟩ | ⟨between, ht, hrest⟩
        · cases between with
          | nil =>
              cases hrest
              rw [hbefore, List.append_nil]
              exact h.flying.flights f hf
          | cons first between =>
              have hlength := congrArg List.length hrest
              simp at hlength
        · cases between with
          | nil =>
              cases hrest
              rw [List.append_nil] at ht
              rw [← ht]
              exact h.flying.flights f hf
          | cons first between =>
              rcases List.cons.inj hrest with ⟨rfl, _⟩
              exact h.flying.called before f' between ht
      case inputs =>
        rw [Timeline.inputs_append, ← h.flying.inputs]
        exact List.map_append
    case delivered => exact h.delivered
  unfold World.callProcessor
  simp only
  split
  · exact hcounted.frame (World.frame_land _ _ _)
  · have hupdated := World.frame_updateFlight counted f.number
      (f := ({ · with ending := (f.attempt.processor.script.action name
        (x.world.countCall f.attempt.processor.number name).2).ending }))
      (fun _ => rfl) fun _ => rfl
    exact (hcounted.frame hupdated).frame (World.frame_setTimer _ _ _)

theorem Sound.advance (h : x.Sound) (stage : Stage) : (x.advance stage).Sound := by
  cases stage with
  | submitting inputs => exact Batch.keeps_submit keeps_host inputs h
  | closing grace => exact Shutdown.keeps_start keeps_host coding grace h
  | shutdown s elapsed => exact Shutdown.keeps_look keeps_host coding elapsed s h
  | _ => exact h

theorem frame_collect (w : World) (entries : Batch Json.Value) :
    World.Frame w (w.collect entries).1 := by
  unfold World.collect
  simp only
  split
  · exact World.Frame.refl w
  · exact World.Frame.refl w

theorem frame_stageOf (w : World) (number : Nat) (s : Shutdown) :
    World.Frame w (w.stageOf number s).1 := by
  cases s with
  | waiting grace => exact World.frame_setTimer w grace _
  | stopping => exact World.Frame.refl w
  | stopped => exact World.Frame.refl w

theorem frame_advanceJob (x : Diary) (number : Nat) (stage : Stage) :
    World.Frame (x.advance stage).world (x.world.advanceJob number stage).1 := by
  cases stage with
  | submitting inputs =>
      have hmirrors := Batch.mirrors_submit (c := coding) mirrors_host inputs x
      unfold World.advanceJob World.submitBatch
      simp only
      rw [← hmirrors, show x.advance (.submitting inputs) =
        (Batch.submit host coding inputs x).1 from rfl]
      cases Batch.submit host coding inputs x with
      | mk y result =>
          cases result with
          | ok entries => exact frame_collect y.world entries
          | error refusal => exact World.Frame.refl y.world
  | collecting entries => exact frame_collect x.world entries
  | draining =>
      unfold World.advanceJob
      simp only
      split
      · exact World.Frame.refl x.world
      · exact World.Frame.refl x.world
  | closing grace =>
      have hmirrors := Shutdown.mirrors_start mirrors_host grace x
      unfold World.advanceJob
      simp only
      rw [← hmirrors]
      exact frame_stageOf _ number _
  | shutdown s elapsed =>
      have hmirrors := Shutdown.mirrors_look mirrors_host elapsed s x
      unfold World.advanceJob
      simp only
      rw [← hmirrors]
      split
      · exact World.Frame.refl _
      · exact (World.frame_clearTimers _ _).trans (frame_stageOf _ number _)
  | done result => exact World.Frame.refl x.world

theorem Sound.take (h : x.Sound) (turn : Turn) : (x.take turn).Sound := by
  unfold Diary.take
  cases turn with
  | start number =>
      apply h.frame
      show World.Frame x.world (x.world.withFlight number x.world.startFlight)
      unfold World.withFlight
      split
      next f _ => exact World.frame_startFlight x.world f
      next => exact World.Frame.refl x.world
  | call number =>
      unfold timelineAfter World.take World.withFlight
      simp only
      cases hflight : x.world.flight? number with
      | some f => exact h.callProcessor (List.mem_of_find?_eq_some hflight)
      | none => exact h
  | wake number =>
      apply h.frame
      show World.Frame x.world (x.world.withFlight number fun f =>
        x.world.land f (f.ending.outcome f.attempt.input))
      unfold World.withFlight
      split
      next f _ => exact World.frame_land x.world f _
      next => exact World.Frame.refl x.world
  | finish number found =>
      unfold timelineAfter World.take World.withFlight
      simp only
      cases x.world.flight? number with
      | some f => exact h.finishFlight f found
      | none => exact h
  | job number =>
      unfold timelineAfter World.take
      simp only
      cases x.world.jobs[number]? with
      | some job =>
          exact (h.advance job.stage).frame
            ((frame_advanceJob x number job.stage).trans (World.frame_setJob _ _ _))
      | none => exact h

theorem Sound.next (h : x.Sound) (bound : Int) : (x.next bound).Sound := by
  unfold Diary.next
  split
  next turn rest _ =>
    have hframe : World.Frame x.world { x.world with turns := rest } :=
      World.frame_of_eq rfl rfl rfl rfl rfl rfl
    exact (h.frame hframe).take turn
  next hturns =>
    apply h.frame
    unfold World.next?
    rw [hturns]
    simp only
    split
    · split
      · exact World.frame_moveTo x.world _
      · exact World.Frame.refl x.world
    · exact World.Frame.refl x.world

theorem Sound.step (h : x.Sound) (s : Step) : (x.step s).Sound := by
  have hsame : forall f, f ∈ x.world.flights -> exists f', f' ∈ x.world.flights ∧
      f'.number = f.number ∧ f'.attempt = f.attempt :=
    fun f hf => ⟨f, hf, rfl, rfl⟩
  cases s with
  | subscribe name =>
      have hflying : (x.world.subscribe name []).1.Flying x.timeline :=
        h.flying.congr rfl hsame rfl
      exact ⟨h.heard.subscribe name, hflying.concat rfl rfl, h.delivered⟩
  | unsubscribe observer =>
      have hworld : (x.world.unsubscribe observer).1.Flying x.timeline ∧
          (x.world.unsubscribe observer).1.scheduler = x.world.scheduler := by
        unfold World.unsubscribe
        split
        · exact ⟨h.flying.congr rfl hsame rfl, rfl⟩
        · exact ⟨h.flying, rfl⟩
      refine ⟨h.heard.unsubscribe observer, hworld.1.concat rfl rfl, ?_⟩
      show (x.world.unsubscribe observer).1.scheduler.events = []
      rw [hworld.2]
      exact h.delivered
  | operate operation => exact h.operate operation
  | begin stage => exact h.frame (World.frame_startJob x.world stage)
  | next bound => exact h.next bound
  | setClock now => exact h.frame (World.frame_of_eq rfl rfl rfl rfl rfl rfl)

theorem Sound.steps (h : x.Sound) (ss : List Step) : (x.steps ss).Sound := by
  induction ss generalizing x with
  | nil => exact h
  | cons s ss ih => exact ih (h.step s)

theorem sound_opened (recorded : Bool) (options : Scheduler.Options)
    (cacheOptions : Cache.Options) (ids : Scheduler.IdSource) (now : Int) :
    (opened recorded options cacheOptions ids now).Sound := by
  have hflying : forall {w : World} {t : Timeline}, w.nextFlight = 0 -> w.flights = [] ->
      w.report.calls = [] -> t.starts = [] -> t.inputs = [] -> (forall f, .called f ∉ t) ->
        w.Flying t := by
    intro w t hnext hflights hcalls hstarts hinputs hcalled
    constructor
    case count => rw [hnext, hstarts]; rfl
    case flights => rw [hflights]; exact fun f hf => nomatch hf
    case called =>
      intro before f after heq
      apply absurd _ (hcalled f)
      rw [heq]
      exact List.mem_append_right _ List.mem_cons_self
    case inputs => rw [hcalls, hinputs]; rfl
  cases recorded with
  | true =>
      have hcalled : forall f, Happening.called f ∉ [Happening.subscribed .recorder] :=
        fun f hmem => nomatch List.mem_singleton.mp hmem
      refine ⟨?_, hflying rfl rfl rfl rfl rfl hcalled, rfl⟩
      refine ⟨⟨?_, ?_, ?_, ?_, ?_⟩, rfl, rfl, rfl, List.nodup_singleton _, ?_⟩
      · exact fun o ho => nomatch ho
      · exact fun entry _ n o ho => nomatch ho
      · intro entry hentry n hn
        rw [List.mem_singleton.mp hentry] at hn
        cases hn
      · intro entry hentry
        rw [List.mem_singleton.mp hentry]
        exact Nat.le_refl _
      · exact fun o ho => nomatch ho
      · intro n hmem
        cases List.mem_singleton.mp hmem
  | false =>
      have hcalled : forall f, Happening.called f ∉ [] := fun f => List.not_mem_nil
      refine ⟨?_, hflying rfl rfl rfl rfl rfl hcalled, rfl⟩
      refine ⟨⟨?_, ?_, ?_, ?_, ?_⟩, rfl, rfl, rfl, List.nodup_nil, ?_⟩
      · exact fun o ho => nomatch ho
      · exact fun entry hentry => nomatch hentry
      · exact fun entry hentry => nomatch hentry
      · exact fun entry hentry => nomatch hentry
      · exact fun o ho => nomatch ho
      · exact fun n hmem => nomatch hmem

/-!
# What is heard
-/

/-- What is told of the events of a timeline is heard by those who listened at the time. -/
structure Delivered (x : Diary) : Prop where
  /-- No event is left undelivered. -/
  nothing_left : x.world.scheduler.events = []
  /-- Event by event, all are told that listen, in the order of their subscriptions. -/
  notes : x.world.report.notes = (x.timeline.tellings []).filterMap Note.ofTelling?
  events : x.world.report.events.map Prod.snd =
    (x.timeline.tellings []).filterMap Listener.recorded?
  between : forall l before during after,
    x.timeline = before ++ .subscribed l :: during ++ .unsubscribed l :: after ->
      .unsubscribed l ∉ during -> x.world.heard l = Timeline.events during
  since : forall l before after, x.timeline = before ++ .subscribed l :: after ->
    .unsubscribed l ∉ after -> x.world.heard l = Timeline.events after
  never : forall l, .subscribed l ∉ x.timeline -> x.world.heard l = []
  /-- The processors that were called, and what with. -/
  inputs : x.world.report.calls.map Prod.fst = x.timeline.inputs
  /-- The start of an attempt stands before the call of its processor. -/
  started : forall before f after, x.timeline = before ++ .called f :: after ->
    exists earlier attempt later,
      before = earlier ++ .emitted (.started f.attempt.id attempt) :: later ∧
        (Timeline.starts earlier).length = f.number
  /-- Whatever is on its way was told to have started, whether or not its processor has been
  called yet. -/
  underway : forall f, f ∈ x.world.flights -> exists earlier attempt later,
    x.timeline = earlier ++ .emitted (.started f.attempt.id attempt) :: later ∧
      (Timeline.starts earlier).length = f.number

theorem Sound.heard_eq (h : x.Sound) (l : Listener) :
    x.world.heard l = Timeline.heard l (x.timeline.tellings []) := by
  cases l with
  | recorder =>
      unfold World.heard Timeline.heard
      simp only
      rw [h.heard.events]
      apply List.filterMap_congr
      rintro ⟨l, e⟩ _
      cases l with
      | recorder => rfl
      | observer n => rfl
  | observer number =>
      unfold World.heard Timeline.heard
      simp only
      rw [h.heard.notes, List.filterMap_filterMap]
      apply List.filterMap_congr
      rintro ⟨l, e⟩ _
      cases l with
      | recorder => rfl
      | observer n =>
          by_cases heq : n = number
          · simp [Note.ofTelling?, heq]
          · simp [Note.ofTelling?, heq]

theorem Sound.delivered_all (h : x.Sound) : x.Delivered where
  nothing_left := h.delivered
  notes := h.heard.notes
  events := h.heard.events
  between := by
    intro l before during after ht hout
    have hnodup := h.heard.once
    rw [ht] at hnodup
    rw [h.heard_eq, ht]
    exact Timeline.heard_tellings_between hnodup hout
  since := by
    intro l before after ht hout
    have hnodup := h.heard.once
    rw [ht] at hnodup
    rw [h.heard_eq, ht]
    exact Timeline.heard_tellings_since hnodup hout
  never := by
    intro l hnot
    rw [h.heard_eq]
    exact Timeline.heard_tellings_of_not_mem hnot List.not_mem_nil
  inputs := h.flying.inputs
  started := fun before f after ht =>
    Timeline.exists_started_of_starts (h.flying.called before f after ht)
  underway := fun f hf => Timeline.exists_started_of_starts (h.flying.flights f hf)

/-- However calls, turns and the comings and goings of observers that only listen are
interleaved, every event is heard once by everybody who listened when it was emitted, and
in order; and before a processor is called, its start has been heard. -/
theorem delivered_steps (recorded : Bool) (options : Scheduler.Options)
    (cacheOptions : Cache.Options) (ids : Scheduler.IdSource) (now : Int) (ss : List Step) :
    let x := (opened recorded options cacheOptions ids now).steps ss
    x.world = (World.opened recorded options cacheOptions ids now).steps ss ∧ x.Delivered :=
  ⟨world_steps _ ss, ((sound_opened recorded options cacheOptions ids now).steps ss).delivered_all⟩

/-- An observer hears what is emitted between its subscription and the end of it. -/
example :
    ((opened false .default .default (.sequential "task") 0).steps
      [.operate (.setScript { named := [], fallback := [] }),
        .operate (.submit (.text "a") 0), .subscribe "first", .operate (.submit (.text "b") 0),
        .next 1, .next 1, .unsubscribe 0, .next 1]).world.heard (.observer 0) =
      [.queued ⟨"task-2"⟩ 0] := by
  decide +kernel

end Diary
end Simulation
end CodeSurvey
