import CodeSurvey.Proofs.Scheduler.Controls

/-!
# The scheduler does not stall

Some calls bring a task, free a slot or lift a limit, and leave it to a dispatch to start
what may be started now.  When all dispatches that were asked for have been made, the
scheduler is paused, or nothing waits, or all worker slots are taken.  A dispatch does
nothing without a processor, but nothing waits before there is one.
-/

namespace CodeSurvey
namespace Scheduler
namespace State

variable {s t : State p i o} {c : Coding i o} {now : Int}

/-- Nothing waits that may be started. -/
def CaughtUp (s : State p i o) : Prop :=
  s.paused = true ∨ s.queue = [] ∨ s.options.maxWorkers ≤ s.active

/-- Without a processor there is no work. -/
def Supplied (s : State p i o) : Prop :=
  s.processor = none -> s.queue = [] ∧ s.inFlight = []

/-!
# Actions and the dispatches they ask for
-/

def asks (c : Coding i o) (s : State p i o) (m : Moment p i o) : Bool :=
  match m.action with
  | .submit input priority => (s.submit c m.now input priority).dispatches
  | .cancel id => (s.cancel m.now id).dispatches
  | .cancelAll => (s.cancelAll m.now).dispatches
  | .pause => s.pause.dispatches
  | .resume => s.resume.dispatches
  | .configure options => (s.configure options).dispatches
  | .setProcessor processor => (s.setProcessor processor).dispatches
  | .clearFinished => s.clearFinished.dispatches
  | .clearCache => s.clearCache.dispatches
  | .beginShutdown => s.beginShutdown.dispatches
  | .closeRetries => s.closeRetries.dispatches
  | .finish place found elapsed =>
      match s.inFlight[place]? with
      | some a => (s.finish m.now a.id (a.outcome found) elapsed).dispatches
      | none => false
  | .store place => (s.store c m.now place).dispatches
  | .dispatch | .deliver => false

/-- Every dispatch that an action of the run asks for comes later in the run.  Actions of
other operations may come in between. -/
def Completes (c : Coding i o) : State p i o -> List (Moment p i o) -> Prop
  | _, [] => True
  | s, m :: ms =>
      (s.asks c m = true -> Action.dispatch ∈ ms.map Moment.action) ∧
        Completes c (s.act c m) ms

/-- An action together with the dispatch that it asks for.  The end of an attempt is handled
with the storing of its value. -/
def operate (c : Coding i o) (s : State p i o) (m : Moment p i o) : State p i o :=
  match m.action with
  | .submit input priority => (s.perform m.now (·.submit c m.now input priority)).state
  | .cancel id => (s.perform m.now (·.cancel m.now id)).state
  | .cancelAll => (s.perform m.now (·.cancelAll m.now)).state
  | .pause => (s.perform m.now (·.pause)).state
  | .resume => (s.perform m.now (·.resume)).state
  | .configure options => (s.perform m.now (·.configure options)).state
  | .setProcessor processor => (s.perform m.now (·.setProcessor processor)).state
  | .clearFinished => (s.perform m.now (·.clearFinished)).state
  | .clearCache => (s.perform m.now (·.clearCache)).state
  | .beginShutdown => (s.perform m.now (·.beginShutdown)).state
  | .closeRetries => (s.perform m.now (·.closeRetries)).state
  | .finish place found elapsed =>
      match s.inFlight[place]? with
      | some a =>
          (s.perform m.now (·.finishAndStore c m.now a.id (a.outcome found) elapsed)).state
      | none => s
  | .store place => (s.perform m.now (·.store c m.now place)).state
  | .dispatch => (s.dispatch m.now).1
  | .deliver => s.deliver

/-- Operations and ends of attempts, one after the other. -/
def operateAll (c : Coding i o) (s : State p i o) (ms : List (Moment p i o)) : State p i o :=
  ms.foldl (operate c) s

theorem state_perform (s : State p i o) (now : Int) (call : Call p i o a) :
    (s.perform now call).state =
      if (call s).dispatches then ((call s).state.dispatch now).1 else (call s).state := by
  unfold perform
  simp only
  split
  · rfl
  · rfl

theorem operate_eq (c : Coding i o) (s : State p i o) {m : Moment p i o}
    (hm : forall place found elapsed, m.action ≠ .finish place found elapsed) :
    s.operate c m = if s.asks c m then ((s.act c m).dispatch m.now).1 else s.act c m := by
  rcases m with ⟨now, action⟩
  cases action with
  | finish place found elapsed => exact absurd rfl (hm place found elapsed)
  | dispatch => rfl
  | deliver => rfl
  | _ => exact state_perform s now _

theorem dispatches_finish (s : State p i o) (now : Int) (id : TaskId)
    (outcome : Except Failure o) (elapsed : Time.Span) :
    (s.finish now id outcome elapsed).dispatches = true := by
  unfold finish
  simp only
  split
  · rfl
  · rfl

theorem dispatches_store (c : Coding i o) (s : State p i o) (now : Int) (place : Nat) :
    (s.store c now place).dispatches = false := by
  unfold store
  split
  · rfl
  · rfl

theorem operate_finish (c : Coding i o) {place : Nat} {a : Attempt p i}
    (hplace : s.inFlight[place]? = some a) (now : Int) (found : Except Setback o)
    (elapsed : Time.Span) :
    s.operate c ⟨now, .finish place found elapsed⟩ =
      s.run c [⟨now, .finish place found elapsed⟩, ⟨now, .store s.yields.length⟩,
        ⟨now, .dispatch⟩] := by
  let handled := s.finishAndStore c now a.id (a.outcome found) elapsed
  have hdispatches : handled.dispatches = true := dispatches_finish s now _ _ elapsed
  have hoperate : s.operate c ⟨now, .finish place found elapsed⟩ =
      (s.perform now (·.finishAndStore c now a.id (a.outcome found) elapsed)).state := by
    unfold operate
    simp only [hplace]
  have hrun : s.run c [⟨now, .finish place found elapsed⟩, ⟨now, .store s.yields.length⟩,
      ⟨now, .dispatch⟩] = (handled.state.dispatch now).1 := by
    unfold run
    rw [List.foldl_cons, act_finish c hplace]
    rfl
  rw [hoperate, state_perform, if_pos hdispatches, hrun]

/-!
# Starting what may be started
-/

theorem caughtUp_startFrom (processor : p) (q : Queue) (s : State p i o) :
    (startFrom now processor q s).1.CaughtUp := by
  induction q generalizing s with
  | nil => exact Or.inr (Or.inl rfl)
  | cons next rest ih =>
      unfold startFrom
      split
      · split
        next r _ => exact ih (s.startTask now processor r.task).1
        next => exact ih s
      next hfull =>
        unfold hasFreeSlot at hfull
        rw [Bool.and_eq_true, Bool.not_eq_true', decide_eq_true_iff, not_and] at hfull
        by_cases hpaused : s.paused = true
        · exact Or.inl hpaused
        · have hslots := hfull (Bool.eq_false_iff.mpr hpaused)
          exact Or.inr (Or.inr (Nat.not_lt.mp hslots))

theorem Supplied.caughtUp_dispatch (h : s.Supplied) (now : Int) :
    (s.dispatch now).1.CaughtUp := by
  unfold dispatch
  split
  next processor _ => exact caughtUp_startFrom processor s.queue s
  next hnone => exact Or.inr (Or.inl (h hnone).1)

theorem Supplied.act (h : s.Supplied) (m : Moment p i o) : (s.act c m).Supplied := by
  intro hnone
  have hsame : s.processor = none := by
    have hact : (s.act c m).processor = (s.controls.act m.action).processor :=
      congrArg Controls.processor (controls_act c s m)
    rw [hact] at hnone
    cases haction : m.action with
    | setProcessor processor =>
        rw [haction] at hnone
        cases hnone
    | _ =>
        rw [haction] at hnone
        exact hnone
  have hrefused : s.refusal?.isSome := by
    unfold refusal?
    rw [hsame]
    split
    · rfl
    · rfl
  have hbarred : s.Barred := ⟨(h hsame).1, hrefused⟩
  have hload := hbarred.load_act (c := c) (h hsame).2 m
  exact ⟨(congrArg Load.queue hload).trans (h hsame).1,
    (congrArg Load.inFlight hload).trans (h hsame).2⟩

theorem Supplied.run (h : s.Supplied) (ms : List (Moment p i o)) : (s.run c ms).Supplied :=
  run_induction (fun _ m h => h.act m) h ms

/-!
# Actions that ask for no dispatch

They take work away, if anything; so there is still nothing that may be started.
-/

theorem CaughtUp.congr (h : s.CaughtUp) (hcontrols : t.controls = s.controls)
    (hactive : t.active = s.active) (hqueue : s.queue = [] -> t.queue = []) :
    t.CaughtUp := by
  have hpaused : t.paused = s.paused := congrArg Controls.paused hcontrols
  have hoptions : t.options = s.options := congrArg Controls.options hcontrols
  unfold CaughtUp
  rw [hpaused, hoptions, hactive]
  rcases h with hpause | hnone | hslots
  · exact Or.inl hpause
  · exact Or.inr (Or.inl (hqueue hnone))
  · exact Or.inr (Or.inr hslots)

theorem load_submit_of_not_dispatches {input : i} {priority : Int}
    (h : (s.submit c now input priority).dispatches = false) :
    (s.submit c now input priority).state.load = s.load := by
  revert h
  unfold submit
  split
  · exact fun _ => rfl
  · simp only
    split
    · intro _
      rcases exists_lookUp_eq s now (s.cacheKey c input) with ⟨cache, hfound⟩
      show (s.lookUp now (s.cacheKey c input)).state.load = s.load
      rw [hfound]
      rfl
    · exact fun hdispatches => nomatch hdispatches

theorem CaughtUp.act (h : s.CaughtUp) (hs : s.Supplied) {m : Moment p i o}
    (hm : s.asks c m = false) : (s.act c m).CaughtUp := by
  rcases m with ⟨now, action⟩
  cases action with
  | submit input priority =>
      have hload := load_submit_of_not_dispatches hm
      exact h.congr (controls_submit c s now input priority) (congrArg Load.active hload)
        (congrArg Load.queue hload).trans
  | cancel id =>
      rcases s.exists_cancel_eq now id with ⟨queue, records, events, hcancel, hleft, _⟩
      have hact : s.act c ⟨now, .cancel id⟩ = _ := hcancel
      rw [hact]
      refine h.congr ?_ ?_ ?_
      · rfl
      · rfl
      · intro hnone
        cases hleft with
        | inl hqueue => exact hqueue.trans hnone
        | inr hqueue =>
            apply hqueue.trans
            rw [hnone]
            rfl
  | cancelAll =>
      rcases s.exists_cancelAll_eq now with ⟨records, events, hcancel, _⟩
      exact Or.inr (Or.inl (congrArg queue hcancel))
  | pause => exact Or.inl rfl
  | resume => cases hm
  | configure options => cases hm
  | beginShutdown =>
      have hact : s.act c ⟨now, .beginShutdown⟩ = _ := s.beginShutdown_eq
      rw [hact]
      exact h
  | dispatch => exact hs.caughtUp_dispatch now
  | finish place found elapsed =>
      unfold asks at hm
      unfold State.act
      cases hplace : s.inFlight[place]? with
      | some a =>
          simp only [hplace, dispatches_finish] at hm
          cases hm
      | none =>
          simp only [hplace]
          exact h
  | store place =>
      rcases exists_act_store_eq c s now place with ⟨_, _, hact⟩
      rw [hact]
      exact h
  | _ => exact h

/-!
# Runs
-/

theorem caughtUp_run (hs : s.Supplied) {ms : List (Moment p i o)} (hms : Completes c s ms)
    (h : s.CaughtUp ∨ Action.dispatch ∈ ms.map Moment.action) :
    (s.run c ms).CaughtUp := by
  -- Until a dispatch is made that is still to come, nothing has to be caught up with.
  induction ms generalizing s with
  | nil => exact h.resolve_right List.not_mem_nil
  | cons m ms ih =>
      apply ih (hs.act m) hms.2
      cases hasks : s.asks c m with
      | true => exact Or.inr (hms.1 hasks)
      | false =>
          cases h with
          | inl h => exact Or.inl (h.act hs hasks)
          | inr hmem =>
              cases List.mem_cons.mp hmem with
              | inl hdispatch =>
                  apply Or.inl
                  unfold State.act
                  rw [← hdispatch]
                  exact hs.caughtUp_dispatch m.now
              | inr hmem => exact Or.inr hmem

/-!
# Operations one after the other

An operation that is carried out to its end is an action with its dispatch, so operations
one after the other are a run in which no dispatch is missing.
-/

theorem Completes.append {ms rest : List (Moment p i o)} (h : Completes c s ms)
    (hrest : Completes c (s.run c ms) rest) : Completes c s (ms ++ rest) := by
  induction ms generalizing s with
  | nil => exact hrest
  | cons m ms ih =>
      refine ⟨?_, ih h.2 hrest⟩
      intro hasks
      have hmem := List.mem_append_left (rest.map Moment.action) (h.1 hasks)
      rw [← List.map_append] at hmem
      exact hmem

theorem exists_run_operate (c : Coding i o) (s : State p i o) (m : Moment p i o) :
    exists steps, s.operate c m = s.run c steps ∧ Completes c s steps := by
  have hdispatch : forall s : State p i o, s.asks c ⟨m.now, .dispatch⟩ ≠ true := by
    rintro s ⟨⟩
  by_cases hfinish : exists place found elapsed, m.action = .finish place found elapsed
  · rcases m with ⟨now, action⟩
    rcases hfinish with ⟨place, found, elapsed, rfl⟩
    cases hplace : s.inFlight[place]? with
    | none =>
        refine ⟨[], ?_, trivial⟩
        unfold operate
        simp only [hplace]
        rfl
    | some a =>
        refine ⟨_, operate_finish c hplace now found elapsed, ?_, ?_, ?_, trivial⟩
        · exact fun _ => List.mem_cons_of_mem _ (List.mem_singleton.mpr rfl)
        · intro hasks
          cases (dispatches_store c _ now _).symm.trans hasks
        · exact fun hasks => absurd hasks (hdispatch _)
  · rw [operate_eq c s fun place found elapsed h => hfinish ⟨place, found, elapsed, h⟩]
    split
    · refine ⟨[m, ⟨m.now, .dispatch⟩], rfl, ?_, ?_, trivial⟩
      · exact fun _ => List.mem_singleton.mpr rfl
      · exact fun hasks => absurd hasks (hdispatch _)
    next hasks => exact ⟨[m], rfl, fun h => absurd h hasks, trivial⟩

theorem exists_run_operateAll (c : Coding i o) (s : State p i o)
    (ms : List (Moment p i o)) :
    exists steps, s.operateAll c ms = s.run c steps ∧ Completes c s steps := by
  induction ms generalizing s with
  | nil => exact ⟨[], rfl, trivial⟩
  | cons m ms ih =>
      rcases exists_run_operate c s m with ⟨first, hfirst, hcomplete⟩
      rcases ih (s.operate c m) with ⟨rest, hrest, hcompletes⟩
      refine ⟨first ++ rest, ?_, ?_⟩
      · rw [run_append, ← hfirst]
        exact hrest
      · rw [hfirst] at hcompletes
        exact hcomplete.append hcompletes

/-!
# No stall
-/

/-- What does not run has to wait for a reason, and while something waits, something runs.
The attempts in flight are told apart by their ids, which have to be distinct. -/
structure Unstalled (distinct : Prop) (s : State p i o) : Prop where
  sound : s.options.Sound
  caughtUp : s.paused = true ∨ s.queue = [] ∨ s.options.maxWorkers ≤ s.active
  occupied : s.paused = false -> s.queue ≠ [] -> 1 ≤ s.active
  working : distinct -> s.paused = false -> s.queue ≠ [] -> s.inFlight ≠ []

theorem CaughtUp.unstalled (h : s.CaughtUp) (hsound : s.options.Sound) {distinct : Prop}
    (hs : distinct -> s.Consistent) : s.Unstalled distinct := by
  have hoccupied : s.paused = false -> s.queue ≠ [] -> 1 ≤ s.active := by
    intro hpaused hqueue
    rcases h with hpause | hnone | hslots
    · rw [hpaused] at hpause
      cases hpause
    · exact absurd hnone hqueue
    · have hmin := hsound.one_le_minWorkers
      have hmax := hsound.minWorkers_le_maxWorkers
      omega
  constructor
  case sound => exact hsound
  case caughtUp => exact h
  case occupied => exact hoccupied
  case working =>
    intro hdistinct hpaused hqueue hnone
    have hactive : s.active = s.inFlight.length := (hs hdistinct).active_eq
    have hpos := hoccupied hpaused hqueue
    rw [hactive, hnone] at hpos
    cases hpos

/-- A new scheduler does not stall, whatever its options: not after any operations and ends
of attempts, and not in a run in which they overlap, once no dispatch is missing.  Its
options are in order at every point. -/
theorem unstalled_run (c : Coding i o) (options : Options) (cacheOptions : Cache.Options)
    (ids : IdSource) (ms : List (Moment p i o)) :
    let s := (new options cacheOptions ids).state
    (s.operateAll c ms).Unstalled (Function.Injective ids.nth) ∧
      (Completes c s ms -> (s.run c ms).Unstalled (Function.Injective ids.nth)) ∧
      (s.run c ms).options.Sound := by
  intro s
  have hsound : forall steps, (s.run c steps).options.Sound := by
    intro steps
    exact run_induction (motive := fun s => s.options.Sound)
      (fun _ m h => sound_options_act c h m) (Options.sound_normalized options) steps
  have hrun : forall steps, Completes c s steps ->
      (s.run c steps).Unstalled (Function.Injective ids.nth) := by
    intro steps hcompletes
    have hsupplied : s.Supplied := fun _ => ⟨rfl, rfl⟩
    have hcaughtUp := caughtUp_run hsupplied hcompletes (Or.inl (Or.inr (Or.inl rfl)))
    exact hcaughtUp.unstalled (hsound steps) fun hids =>
      (consistent_new options cacheOptions hids).run steps
  refine ⟨?_, hrun ms, hsound ms⟩
  rcases exists_run_operateAll c s ms with ⟨steps, heq, hcompletes⟩
  rw [heq]
  exact hrun steps hcompletes

/-- One slot, which the corrected options leave, and two tasks: the second one waits for
the slot until the options are replaced. -/
theorem unstalled_reconfigured :
    let c : Coding String String := { input := fun _ => none, output := .text }
    let least : Options := { Options.forWorkers 1 with minWorkers := 0, maxWorkers := 0 }
    let ms : List (Moment Unit String String) :=
      [⟨0, .setProcessor ()⟩, ⟨1, .submit "a" 0⟩, ⟨1, .submit "b" 0⟩, ⟨1, .dispatch⟩,
        ⟨1, .dispatch⟩]
    let s := (new least .default (.sequential "task")).state.run c ms
    s.Unstalled (Function.Injective (IdSource.sequential "task").nth) ∧
      s.paused = false ∧ s.queue.length = 1 ∧ s.inFlight.length = 1 ∧
      (s.operate c ⟨2, .configure { least with maxWorkers := 2 }⟩).queue = [] := by
  intro c least ms s
  have hcompletes : Completes c (new least .default (.sequential "task")).state ms := by
    simp [Completes, ms, asks]
  exact ⟨(unstalled_run c least .default _ ms).2.1 hcompletes, by decide +kernel⟩

end State
end Scheduler
end CodeSurvey
