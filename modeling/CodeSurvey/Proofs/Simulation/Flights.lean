import CodeSurvey.Proofs.Simulation.Delivery

/-!
# Attempts on their way

Every start that is told puts one attempt on its way, in the order in which the starts are
told.  So the number of an attempt is that of its start, and by the time that its processor
is called, everybody has been told.
-/

namespace CodeSurvey

namespace Scheduler
namespace State

variable {s : State p i o}

theorem exists_events_startFrom (now : Int) (processor : p) (q : Queue) (s : State p i o) :
    exists starts : List (TaskId × Nat),
      (startFrom now processor q s).1.events =
          s.events ++ starts.map (fun start => Event.started start.1 start.2) ∧
        (startFrom now processor q s).2.map Attempt.id = starts.map Prod.fst := by
  induction q generalizing s with
  | nil => exact ⟨[], (List.append_nil _).symm, rfl⟩
  | cons next rest ih =>
      unfold startFrom
      split
      · split
        next r _ =>
          rcases ih (s.startTask now processor r.task).1 with ⟨starts, hevents, hids⟩
          refine ⟨(r.task.id, r.task.retries + 1) :: starts, ?_, ?_⟩
          · exact hevents.trans (List.append_assoc _ _ _)
          · exact congrArg (r.task.id :: ·) hids
        next => exact ih s
      · exact ⟨[], (List.append_nil _).symm, rfl⟩

theorem exists_events_dispatch (s : State p i o) (now : Int) :
    exists starts : List (TaskId × Nat),
      (s.dispatch now).1.events =
          s.events ++ starts.map (fun start => Event.started start.1 start.2) ∧
        (s.dispatch now).2.map Attempt.id = starts.map Prod.fst := by
  unfold dispatch
  split
  next processor _ => exact exists_events_startFrom now processor s.queue s
  next => exact ⟨[], (List.append_nil _).symm, rfl⟩

end State
end Scheduler

namespace Simulation

open Scheduler (Event TaskId Attempt State)

namespace Timeline

variable {t : Timeline}

theorem starts_ofEvents_of_unstarted {told : List Event} (h : State.Unstarted told) :
    (ofEvents told).starts = [] := by
  unfold starts ofEvents
  rw [List.filterMap_map, List.filterMap_eq_nil_iff]
  intro e he
  cases e with
  | started id attempt => exact absurd he (h id attempt)
  | _ => rfl

theorem starts_ofEvents_started (starts : List (TaskId × Nat)) :
    (ofEvents (starts.map fun start => Event.started start.1 start.2)).starts =
      starts.map Prod.fst := by
  induction starts with
  | nil => rfl
  | cons start starts ih => exact congrArg (start.1 :: ·) ih

theorem exists_started_of_starts {number : Nat} {id : TaskId}
    (h : t.starts[number]? = some id) :
    exists earlier attempt later,
      t = earlier ++ .emitted (.started id attempt) :: later ∧
        (starts earlier).length = number := by
  induction t generalizing number with
  | nil => cases h
  | cons first t ih =>
      unfold starts at h
      rw [List.filterMap_cons] at h
      have hskip : first.start? = none -> (starts t)[number]? = some id ->
          exists earlier attempt later,
            first :: t = earlier ++ .emitted (.started id attempt) :: later ∧
              (starts earlier).length = number := by
        intro hnone hget
        rcases ih hget with ⟨earlier, attempt, later, ht, hlength⟩
        refine ⟨first :: earlier, attempt, later, congrArg (first :: ·) ht, ?_⟩
        unfold starts
        rw [List.filterMap_cons_none hnone]
        exact hlength
      cases hstart : first.start? with
      | none =>
          rw [hstart] at h
          exact hskip hstart h
      | some first' =>
          rw [hstart] at h
          cases number with
          | zero =>
              cases h
              cases first with
              | emitted e =>
                  cases e with
                  | started id' attempt =>
                      cases hstart
                      exact ⟨[], attempt, t, rfl, rfl⟩
                  | _ => cases hstart
              | _ => cases hstart
          | succ number =>
              rcases ih h with ⟨earlier, attempt, later, ht, hlength⟩
              refine ⟨first :: earlier, attempt, later, congrArg (first :: ·) ht, ?_⟩
              unfold starts
              rw [List.filterMap_cons_some hstart]
              exact congrArg Nat.succ hlength

end Timeline

namespace World

variable {w w' w'' : World} {t : Timeline}

/-!
# What is told to nobody
-/

/-- Nothing of what observers or processors could notice has changed; attempts may have
ended. -/
structure Frame (w w' : World) : Prop where
  scheduler : w'.scheduler = w.scheduler
  registry : w'.registry = w.registry
  observers : w'.observers = w.observers
  notes : w'.report.notes = w.report.notes
  events : w'.report.events = w.report.events
  calls : w'.report.calls = w.report.calls
  nextFlight : w'.nextFlight = w.nextFlight
  flights : forall f, f ∈ w'.flights -> exists f', f' ∈ w.flights ∧
    f'.number = f.number ∧ f'.attempt = f.attempt

/-- A world that differs in its turns, timers, jobs, its clock and its log. -/
theorem frame_of_eq (hscheduler : w'.scheduler = w.scheduler)
    (hregistry : w'.registry = w.registry) (hobservers : w'.observers = w.observers)
    (hreport : w'.report = w.report) (hnext : w'.nextFlight = w.nextFlight)
    (hflights : w'.flights = w.flights) : Frame w w' := by
  constructor
  case scheduler => exact hscheduler
  case registry => exact hregistry
  case observers => exact hobservers
  case notes => rw [hreport]
  case events => rw [hreport]
  case calls => rw [hreport]
  case nextFlight => exact hnext
  case flights =>
    intro f hf
    exact ⟨f, hflights ▸ hf, rfl, rfl⟩

theorem Frame.refl (w : World) : Frame w w :=
  frame_of_eq rfl rfl rfl rfl rfl rfl

theorem Frame.trans (h : Frame w w') (h' : Frame w' w'') : Frame w w'' where
  scheduler := h'.scheduler.trans h.scheduler
  registry := h'.registry.trans h.registry
  observers := h'.observers.trans h.observers
  notes := h'.notes.trans h.notes
  events := h'.events.trans h.events
  calls := h'.calls.trans h.calls
  nextFlight := h'.nextFlight.trans h.nextFlight
  flights := by
    intro f hf
    rcases h'.flights f hf with ⟨g, hg, hnumber, hattempt⟩
    rcases h.flights g hg with ⟨g', hg', hnumber', hattempt'⟩
    exact ⟨g', hg', hnumber'.trans hnumber, hattempt'.trans hattempt⟩

theorem frame_ask (w : World) (turn : Turn) : Frame w (w.ask turn) :=
  frame_of_eq rfl rfl rfl rfl rfl rfl

theorem frame_setTimer (w : World) (delay : Nat) (alarm : Alarm) :
    Frame w (w.setTimer delay alarm) :=
  frame_of_eq rfl rfl rfl rfl rfl rfl

theorem frame_clearTimers (w : World) (alarms : List Alarm) : Frame w (w.clearTimers alarms) :=
  frame_of_eq rfl rfl rfl rfl rfl rfl

theorem frame_setJob (w : World) (number : Nat) (job : Job) : Frame w (w.setJob number job) :=
  frame_of_eq rfl rfl rfl rfl rfl rfl

theorem frame_write (w : World) (entries : List Log.Entry) : Frame w (w.write entries) :=
  frame_of_eq rfl rfl rfl rfl rfl rfl

theorem frame_startJob (w : World) (stage : Stage) : Frame w (w.startJob stage).1 :=
  frame_of_eq rfl rfl rfl rfl rfl rfl

theorem frame_wakeJob (w : World) (number : Nat) : Frame w (w.wakeJob number) := by
  unfold wakeJob
  split
  · exact Frame.refl w
  · exact Frame.refl w
  · split
    · exact Frame.refl w
    · exact frame_of_eq rfl rfl rfl rfl rfl rfl

theorem now_wakeJob (w : World) (number : Nat) : (w.wakeJob number).now = w.now := by
  unfold wakeJob
  split
  · rfl
  · rfl
  · split
    · rfl
    · rfl

theorem frame_wakeJobs (w : World) : Frame w w.wakeJobs ∧ w.wakeJobs.now = w.now := by
  unfold wakeJobs
  generalize List.range w.jobs.length = numbers
  induction numbers generalizing w with
  | nil => exact ⟨Frame.refl w, rfl⟩
  | cons number numbers ih =>
      rcases ih (w.wakeJob number) with ⟨hframe, hnow⟩
      exact ⟨(frame_wakeJob w number).trans hframe, hnow.trans (now_wakeJob w number)⟩

theorem frame_updateFlight (w : World) (number : Nat) {f : Flight -> Flight}
    (hnumber : forall x, (f x).number = x.number) (hattempt : forall x, (f x).attempt = x.attempt) :
    Frame w (w.updateFlight number f) where
  scheduler := rfl
  registry := rfl
  observers := rfl
  notes := rfl
  events := rfl
  calls := rfl
  nextFlight := rfl
  flights := by
    intro x hx
    rcases List.mem_map.mp hx with ⟨y, hy, rfl⟩
    refine ⟨y, hy, ?_⟩
    split
    · exact ⟨(hnumber y).symm, (hattempt y).symm⟩
    · exact ⟨rfl, rfl⟩

theorem frame_startFlight (w : World) (f : Flight) : Frame w (w.startFlight f) := by
  have hupdated : Frame w (w.updateFlight f.number ({ · with since := w.now })) :=
    frame_updateFlight w f.number (fun _ => rfl) fun _ => rfl
  unfold startFlight
  simp only
  split
  · exact hupdated.trans (frame_ask _ _)
  · exact (hupdated.trans (frame_setTimer _ _ _)).trans (frame_ask _ _)

theorem frame_land (w : World) (f : Flight)
    (found : Except Scheduler.Setback Json.Value) : Frame w (w.land f found) :=
  (frame_clearTimers w _).trans (frame_ask _ _)

theorem frame_ring (w : World) (timer : Timer) : Frame w (w.ring timer) := by
  unfold ring
  split
  next number _ => exact frame_ask w _
  next number _ =>
    unfold withFlight
    split
    next f _ =>
      have hdropped : Frame w { w with report := { w.report with
          dropped := w.report.dropped ++ [inputName f.attempt.input] } } :=
        ⟨rfl, rfl, rfl, rfl, rfl, rfl, rfl, fun f hf => ⟨f, hf, rfl, rfl⟩⟩
      exact hdropped.trans (frame_land _ f _)
    next => exact Frame.refl w
  next number _ =>
    split
    · split
      · exact (frame_setJob w _ _).trans (frame_wakeJob _ _)
      · exact Frame.refl w
    · exact Frame.refl w

theorem frame_moveTo (w : World) (instant : Int) : Frame w (w.moveTo instant) := by
  have hrings : forall (timers : List Timer) (w : World), Frame w (timers.foldl ring w) := by
    intro timers
    induction timers with
    | nil => exact Frame.refl
    | cons timer timers ih => exact fun w => (frame_ring w timer).trans (ih _)
  have hmoved : Frame w { w with
      now := instant, timers := (w.timers.partition fun timer => timer.due ≤ instant).2 } :=
    frame_of_eq rfl rfl rfl rfl rfl rfl
  exact hmoved.trans (hrings _ _)

theorem Heard.frame (h : w.Heard t) (hframe : Frame w w') : w'.Heard t :=
  h.congr hframe.registry hframe.observers hframe.notes hframe.events

/-!
# Attempts and their starts
-/

/-- The attempts on their way are those that were told to have started. -/
structure Flying (w : World) (t : Timeline) : Prop where
  count : w.nextFlight = t.starts.length
  flights : forall f, f ∈ w.flights -> t.starts[f.number]? = some f.attempt.id
  called : forall before f after, t = before ++ .called f :: after ->
    (Timeline.starts before)[f.number]? = some f.attempt.id
  inputs : w.report.calls.map Prod.fst = t.inputs

theorem Flying.congr (h : w.Flying t) (hnext : w'.nextFlight = w.nextFlight)
    (hflights : forall f, f ∈ w'.flights -> exists f', f' ∈ w.flights ∧
      f'.number = f.number ∧ f'.attempt = f.attempt)
    (hcalls : w'.report.calls = w.report.calls) : w'.Flying t where
  count := hnext.trans h.count
  flights := by
    intro f hf
    rcases hflights f hf with ⟨f', hf', hnumber, hattempt⟩
    rw [← hnumber, ← hattempt]
    exact h.flights f' hf'
  called := h.called
  inputs := by
    rw [hcalls]
    exact h.inputs

theorem Flying.frame (h : w.Flying t) (hframe : Frame w w') : w'.Flying t :=
  h.congr hframe.nextFlight hframe.flights hframe.calls

/-- What is told behind all calls is behind each of them. -/
theorem starts_of_called_append {more : Timeline}
    (hcalled : forall before f after, t = before ++ .called f :: after ->
      (Timeline.starts before)[f.number]? = some f.attempt.id)
    (hmore : forall f, .called f ∉ more) {before after : Timeline} {f : Flight}
    (heq : t ++ more = before ++ .called f :: after) :
    (Timeline.starts before)[f.number]? = some f.attempt.id := by
  rcases List.append_eq_append_iff.mp heq with ⟨between, _, hrest⟩ | ⟨between, ht, hrest⟩
  · apply absurd _ (hmore f)
    rw [hrest]
    exact List.mem_append_right _ List.mem_cons_self
  · cases between with
    | nil =>
        apply absurd _ (hmore f)
        rw [← List.nil_append more, ← hrest]
        exact List.mem_cons_self
    | cons first between =>
        rcases List.cons.inj hrest with ⟨rfl, _⟩
        exact hcalled before f between ht

theorem Flying.emit (h : w.Flying t) {told : List Event} (htold : State.Unstarted told) :
    w.Flying (t ++ Timeline.ofEvents told) := by
  have hstarts : Timeline.starts (t ++ Timeline.ofEvents told) = t.starts := by
    rw [Timeline.starts_append, Timeline.starts_ofEvents_of_unstarted htold, List.append_nil]
  constructor
  case count => rw [hstarts]; exact h.count
  case flights => rw [hstarts]; exact h.flights
  case called =>
    intro before f after heq
    exact starts_of_called_append h.called (Timeline.not_called_mem_ofEvents told) heq
  case inputs =>
    rw [Timeline.inputs_append, Timeline.inputs_ofEvents, List.append_nil]
    exact h.inputs

theorem Flying.concat (h : w.Flying t) {first : Happening} (hstart : first.start? = none)
    (hinput : first.input? = none) : w.Flying (t ++ [first]) := by
  have hstarts : Timeline.starts (t ++ [first]) = t.starts := by
    rw [Timeline.starts_append]
    unfold Timeline.starts
    rw [List.filterMap_cons_none hstart]
    exact List.append_nil _
  constructor
  case count => rw [hstarts]; exact h.count
  case flights => rw [hstarts]; exact h.flights
  case called =>
    have hmore : forall f, .called f ∉ [first] := by
      intro f hmem
      rw [← List.mem_singleton.mp hmem] at hinput
      cases hinput
    intro before f after heq
    exact starts_of_called_append h.called hmore heq
  case inputs =>
    rw [Timeline.inputs_append, h.inputs]
    unfold Timeline.inputs
    rw [List.filterMap_cons_none hinput]
    exact (List.append_nil _).symm

theorem launch_same (w : World) (attempts : List (Attempt Processor Json.Value)) :
    (w.launch attempts).registry = w.registry ∧
      (w.launch attempts).observers = w.observers ∧ (w.launch attempts).report = w.report := by
  unfold launch
  induction attempts generalizing w with
  | nil => exact ⟨rfl, rfl, rfl⟩
  | cons attempt attempts ih => exact ih _

theorem nextFlight_launch (w : World) (attempts : List (Attempt Processor Json.Value)) :
    (w.launch attempts).nextFlight = w.nextFlight + attempts.length := by
  unfold launch
  induction attempts generalizing w with
  | nil => rfl
  | cons attempt attempts ih =>
      rw [List.foldl_cons, ih, List.length_cons, Nat.add_comm attempts.length,
        ← Nat.add_assoc]
      rfl

theorem mem_flights_launch {attempts : List (Attempt Processor Json.Value)} {f : Flight}
    (hf : f ∈ (w.launch attempts).flights) :
    f ∈ w.flights ∨ exists place, attempts[place]? = some f.attempt ∧
      f.number = w.nextFlight + place := by
  unfold launch at hf
  induction attempts generalizing w with
  | nil => exact Or.inl hf
  | cons attempt attempts ih =>
      rcases ih hf with hold | ⟨place, hget, hnumber⟩
      · cases List.mem_append.mp hold with
        | inl hold => exact Or.inl hold
        | inr hnew =>
            rw [List.mem_singleton.mp hnew]
            exact Or.inr ⟨0, rfl, rfl⟩
      · refine Or.inr ⟨place + 1, hget, ?_⟩
        rw [hnumber]
        exact (Nat.add_assoc _ _ _).trans (congrArg _ (Nat.add_comm 1 place))

theorem Flying.launch (h : w.Flying t) {attempts : List (Attempt Processor Json.Value)}
    {starts : List (TaskId × Nat)} (hids : attempts.map Attempt.id = starts.map Prod.fst) :
    (w.launch attempts).Flying (t ++ Timeline.ofEvents
      (starts.map fun start => Event.started start.1 start.2)) := by
  have hstarts : Timeline.starts (t ++ Timeline.ofEvents
      (starts.map fun start => Event.started start.1 start.2)) =
      t.starts ++ attempts.map Attempt.id := by
    rw [Timeline.starts_append, Timeline.starts_ofEvents_started, hids]
  have hreport := (launch_same w attempts).2.2
  constructor
  case count =>
    rw [hstarts, nextFlight_launch, h.count, List.length_append, List.length_map]
  case flights =>
    intro f hf
    rw [hstarts]
    rcases mem_flights_launch hf with hold | ⟨place, hget, hnumber⟩
    · have hold' := h.flights f hold
      have hlt : f.number < t.starts.length := (List.getElem?_eq_some_iff.mp hold').1
      rw [List.getElem?_append_left hlt]
      exact hold'
    · rw [hnumber, h.count, List.getElem?_append_right (Nat.le_add_right _ _),
        Nat.add_sub_cancel_left, List.getElem?_map, hget]
      rfl
  case called =>
    intro before f after heq
    exact starts_of_called_append h.called (Timeline.not_called_mem_ofEvents _) heq
  case inputs =>
    rw [Timeline.inputs_append, Timeline.inputs_ofEvents, List.append_nil, hreport]
    exact h.inputs

end World
end Simulation
end CodeSurvey
