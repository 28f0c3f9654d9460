import CodeSurvey.Proofs.Scheduler.Consistency

/-!
# Controls and load of a scheduler

The options, the processor, the pause and the stages of a shutdown are set by calls made
for that purpose; tasks that come, run and end leave them alone.  The load is what waits
and what runs.  Where nothing waits and submissions are refused, only the end of an
attempt changes it.
-/

namespace CodeSurvey
namespace Scheduler

/-!
# Telling of no attempt
-/

namespace Event

/-- An attempt was started, or there will be one more. -/
def isAttempt : Event -> Bool
  | .started _ _ | .retrying _ _ _ => true
  | _ => false

/-- A log goes on, but not with attempts. -/
def Quiet (log log' : List Event) : Prop :=
  exists more, log' = log ++ more ∧ forall e, e ∈ more -> e.isAttempt = false

theorem Quiet.refl (log : List Event) : Quiet log log :=
  ⟨[], (List.append_nil log).symm, fun _ he => nomatch he⟩

theorem Quiet.trans {log log' log'' : List Event} (h : Quiet log log')
    (h' : Quiet log' log'') : Quiet log log'' := by
  rcases h with ⟨first, rfl, hfirst⟩
  rcases h' with ⟨rest, rfl, hrest⟩
  refine ⟨first ++ rest, List.append_assoc _ _ _, ?_⟩
  intro e he
  cases List.mem_append.mp he with
  | inl he => exact hfirst e he
  | inr he => exact hrest e he

theorem quiet_concat (log : List Event) {e : Event} (he : e.isAttempt = false) :
    Quiet log (log ++ [e]) :=
  ⟨[e], rfl, fun _ hx => List.mem_singleton.mp hx ▸ he⟩

theorem Quiet.append_left {log log' : List Event} (h : Quiet log log')
    (earlier : List Event) : Quiet (earlier ++ log) (earlier ++ log') := by
  rcases h with ⟨more, rfl, hmore⟩
  exact ⟨more, (List.append_assoc _ _ _).symm, hmore⟩

end Event

open Event (Quiet quiet_concat)

/-- It is an action on tasks that are there already, and on nothing else. -/
def Action.movesTasks : Action p i o -> Bool
  | .cancel _ | .cancelAll | .clearFinished | .dispatch | .deliver => true
  | _ => false

/-!
# What operations change

Each of these says which parts of the state an operation may change, and what it may tell.
-/

namespace State

variable {s : State p i o} {c : Coding i o}

theorem exists_lookUp_eq (s : State p i o) (now : Int) (key : Option String) :
    exists cache, (s.lookUp now key).state = { s with cache } := by
  cases key with
  | none => exact ⟨s.cache, rfl⟩
  | some key => exact ⟨_, rfl⟩

theorem exists_markCancelled_eq (s : State p i o) (now : Int) (id : TaskId) :
    exists records events, (s.markCancelled now id).1 = { s with records, events } ∧
      Quiet s.events events := by
  unfold markCancelled
  split
  · exact ⟨_, _, rfl, quiet_concat s.events rfl⟩
  · exact ⟨s.records, s.events, rfl, Quiet.refl s.events⟩

theorem exists_markAllCancelled_eq (s : State p i o) (now : Int) (ids : List TaskId) :
    exists records events, (s.markAllCancelled now ids).1 = { s with records, events } ∧
      Quiet s.events events := by
  rw [fst_markAllCancelled]
  induction ids generalizing s with
  | nil => exact ⟨s.records, s.events, rfl, Quiet.refl s.events⟩
  | cons id ids ih =>
      rcases exists_markCancelled_eq s now id with ⟨records, events, hmark, hquiet⟩
      rw [List.foldl_cons, hmark]
      rcases ih { s with records, events } with ⟨records', events', hrest, hquiet'⟩
      exact ⟨records', events', hrest, hquiet.trans hquiet'⟩

theorem exists_emitDrained_eq (s : State p i o) :
    exists events, s.emitDrained = { s with events } ∧ Quiet s.events events := by
  unfold emitDrained
  split
  · exact ⟨_, rfl, quiet_concat s.events rfl⟩
  · exact ⟨s.events, rfl, Quiet.refl s.events⟩

theorem exists_cancel_eq (s : State p i o) (now : Int) (id : TaskId) :
    exists queue records events,
      (s.cancel now id).state = { s with queue, records, events } ∧
        (queue = s.queue ∨ queue = s.queue.leave id) ∧ Quiet s.events events := by
  rcases exists_markCancelled_eq s now id with ⟨records, events, hmarked, hquiet⟩
  unfold cancel
  split
  next marked hmark =>
    rw [hmark] at hmarked
    subst hmarked
    rcases exists_emitDrained_eq
      { s with queue := s.queue.leave id, records, events } with ⟨events', hdrained, hquiet'⟩
    exact ⟨s.queue.leave id, records, events', hdrained, Or.inr rfl, hquiet.trans hquiet'⟩
  next marked hmark =>
    rw [hmark] at hmarked
    exact ⟨s.queue, records, events, hmarked, Or.inl rfl, hquiet⟩

theorem exists_cancelAll_eq (s : State p i o) (now : Int) :
    exists records events,
      (s.cancelAll now).state = { s with queue := [], records, events } ∧
        Quiet s.events events := by
  rcases exists_markAllCancelled_eq { s with queue := [] } now (s.queue.map Waiting.id) with
    ⟨records, events, hmarked, hquiet⟩
  unfold cancelAll
  simp only
  split
  · exact ⟨records, events, hmarked, hquiet⟩
  · rcases exists_emitDrained_eq { s with queue := [], records, events } with
      ⟨events', hdrained, hquiet'⟩
    have hcancelled := (congrArg emitDrained hmarked).trans hdrained
    exact ⟨records, events', hcancelled, hquiet.trans hquiet'⟩

theorem beginShutdown_eq (s : State p i o) :
    s.beginShutdown.state = { s with shuttingDown := true } := by
  unfold beginShutdown
  split
  next h => exact h ▸ rfl
  next => rfl

theorem exists_emitIdle_eq (s : State p i o) :
    exists events, s.emitIdle = { s with events } ∧ Quiet s.events events := by
  have hidle := quiet_concat s.events (e := .idle s.active) rfl
  unfold emitIdle
  split
  · simp only
    split
    · exact ⟨_, rfl, hidle.trans (quiet_concat _ rfl)⟩
    · exact ⟨_, rfl, hidle⟩
  · exact ⟨s.events, rfl, Quiet.refl s.events⟩

theorem act_finish (c : Coding i o) {place : Nat} {a : Attempt p i}
    (hplace : s.inFlight[place]? = some a) (now : Int) (found : Except Setback o)
    (elapsed : Time.Span) :
    s.act c ⟨now, .finish place found elapsed⟩ =
      (s.finish now a.id (a.outcome found) elapsed).state := by
  unfold act
  simp only [hplace]

theorem exists_act_store_eq (c : Coding i o) (s : State p i o) (now : Int) (place : Nat) :
    exists cache yields, s.act c ⟨now, .store place⟩ = { s with cache, yields } := by
  unfold act
  simp only
  unfold store
  split
  · exact ⟨_, _, rfl⟩
  · exact ⟨s.cache, s.yields, rfl⟩

theorem exists_startFrom_eq (now : Int) (processor : p) (q : Queue) (s : State p i o) :
    exists queue records inFlight active peakRunning events,
      (startFrom now processor q s).1 =
        { s with queue, records, inFlight, active, peakRunning, events } := by
  induction q generalizing s with
  | nil => exact ⟨[], s.records, s.inFlight, s.active, s.peakRunning, s.events, rfl⟩
  | cons next rest ih =>
      unfold startFrom
      split
      · split
        next r _ =>
          rcases ih (s.startTask now processor r.task).1 with
            ⟨queue, records, inFlight, active, peakRunning, events, hrest⟩
          exact ⟨queue, records, inFlight, active, peakRunning, events, hrest⟩
        next => exact ih s
      · exact ⟨next :: rest, s.records, s.inFlight, s.active, s.peakRunning, s.events, rfl⟩

theorem exists_dispatch_eq (s : State p i o) (now : Int) :
    exists queue records inFlight active peakRunning events,
      (s.dispatch now).1 =
        { s with queue, records, inFlight, active, peakRunning, events } := by
  unfold dispatch
  split
  next processor _ => exact exists_startFrom_eq now processor s.queue s
  next => exact ⟨s.queue, s.records, s.inFlight, s.active, s.peakRunning, s.events, rfl⟩

theorem exists_concluded_eq (s : State p i o) (now : Int) (r : Record i o)
    (outcome : Except Failure o) (elapsed : Time.Span) :
    exists queue records retries completedRuns averageSeconds events,
      (s.conclude now r outcome elapsed).1 =
        { s with queue, records, retries, completedRuns, averageSeconds, events } := by
  unfold conclude
  split
  · exact ⟨s.queue, _, s.retries, _, _, _, rfl⟩
  · split
    · split
      · exact ⟨s.queue, _, s.retries, s.completedRuns, s.averageSeconds, _, rfl⟩
      · exact ⟨_, _, _, s.completedRuns, s.averageSeconds, _, rfl⟩
    · exact ⟨s.queue, _, s.retries, s.completedRuns, s.averageSeconds, _, rfl⟩

theorem exists_finish_eq (s : State p i o) (now : Int) (id : TaskId)
    (outcome : Except Failure o) (elapsed : Time.Span) :
    exists queue records inFlight active retries completedRuns averageSeconds yields events,
      (s.finish now id outcome elapsed).state =
        { s with
          queue, records, inFlight, active, retries, completedRuns, averageSeconds, yields,
          events } := by
  unfold finish
  simp only
  split
  next =>
    rcases exists_emitIdle_eq (s.release id) with ⟨events, hidle, _⟩
    exact ⟨_, _, _, _, _, _, _, s.yields, events, hidle⟩
  next r _ =>
    rcases exists_concluded_eq (s.release id) now r outcome elapsed with
      ⟨queue, records, retries, completedRuns, averageSeconds, events, hconcluded⟩
    rcases exists_emitIdle_eq ((s.release id).conclude now r outcome elapsed).1 with
      ⟨events', hidle, _⟩
    let yields := s.yields ++ (s.yield? r outcome).toList
    refine ⟨queue, records, (s.release id).inFlight, (s.release id).active, retries,
      completedRuns, averageSeconds, yields, events', ?_⟩
    show { ((s.release id).conclude now r outcome elapsed).1.emitIdle with yields } = _
    rw [hidle, hconcluded]
    rfl

theorem Consistent.exists_finished_eq (h : s.Consistent) {a : Attempt p i}
    (ha : a ∈ s.inFlight) (now : Int) (outcome : Except Failure o) (elapsed : Time.Span) :
    exists r, s.record? a.id = some r ∧ r ∈ s.records ∧ r.task.id = a.id ∧
      r.task.status = .running ∧
      (s.finish now a.id outcome elapsed).state =
        { ((s.release a.id).conclude now r outcome elapsed).1.emitIdle with
          yields := s.yields ++ (s.yield? r outcome).toList } := by
  rcases h.exists_running ha with ⟨r, hrecord, hr, hid, hstatus⟩
  have hreleased : (s.release a.id).record? a.id = some r := hrecord
  refine ⟨r, hrecord, hr, hid, hstatus, ?_⟩
  unfold State.finish
  simp only
  rw [hreleased]
  rfl

theorem submit_of_refusal? (c : Coding i o) {refusal : Refusal}
    (h : s.refusal? = some refusal) (now : Int) (input : i) (priority : Int) :
    s.submit c now input priority = .only s (.error refusal) [] := by
  unfold submit
  rw [h]

/-- A submission is refused, or it is accepted with what was found in the cache. -/
theorem exists_submit_eq (c : Coding i o) (s : State p i o) (now : Int) (input : i)
    (priority : Int) :
    let found := (s.lookUp now (s.cacheKey c input)).result
    exists cache,
      (exists refusal, (s.refusal? = none -> found = none) ∧
        (s.submit c now input priority).result = .error refusal ∧
        (s.submit c now input priority).state = { s with cache }) ∨
      (s.refusal? = none ∧ (found = none -> s.queue.length < s.options.maxQueueSize) ∧
        let accepted := accept { s with cache } now input priority (s.cacheKey c input) found
        (s.submit c now input priority).result = .ok accepted.2 ∧
        (s.submit c now input priority).state = accepted.1) := by
  rcases exists_lookUp_eq s now (s.cacheKey c input) with ⟨cache, hstate⟩
  intro found
  unfold submit
  split
  next refusal hrefusal =>
    refine ⟨s.cache, Or.inl ⟨refusal, ?_, rfl, rfl⟩⟩
    intro hnone
    cases hrefusal.symm.trans hnone
  next hrefusal =>
    simp only
    rw [hstate]
    split
    next hfull =>
      refine ⟨cache, Or.inl ⟨_, fun _ => ?_, rfl, rfl⟩⟩
      exact Option.isNone_iff_eq_none.mp (Bool.and_eq_true_iff.mp hfull).1
    next hroom =>
      refine ⟨cache, Or.inr ⟨hrefusal, ?_, rfl, rfl⟩⟩
      intro hnone
      have hfound : (s.lookUp now (s.cacheKey c input)).result = none := hnone
      rw [hfound] at hroom
      simpa using hroom

theorem dispatch_of_queue_eq_nil (h : s.queue = []) (now : Int) :
    s.dispatch now = (s, []) := by
  unfold dispatch
  split
  · rw [h]
    unfold startFrom
    rw [← h]
  · rfl

theorem exists_act_eq (c : Coding i o) (s : State p i o) {m : Moment p i o}
    (hm : m.action.movesTasks = true) :
    exists queue records inFlight active peakRunning events,
      s.act c m = { s with queue, records, inFlight, active, peakRunning, events } := by
  rcases m with ⟨now, action⟩
  cases action with
  | cancel id =>
      rcases s.exists_cancel_eq now id with ⟨queue, records, events, hcancel, _⟩
      exact ⟨queue, records, s.inFlight, s.active, s.peakRunning, events, hcancel⟩
  | cancelAll =>
      rcases s.exists_cancelAll_eq now with ⟨records, events, hcancel, _⟩
      exact ⟨[], records, s.inFlight, s.active, s.peakRunning, events, hcancel⟩
  | clearFinished => exact ⟨_, _, _, _, _, _, rfl⟩
  | dispatch => exact s.exists_dispatch_eq now
  | deliver => exact ⟨_, _, _, _, _, _, rfl⟩
  | _ => cases hm

end State

/-!
# Controls
-/

structure Controls (p : Type) where
  options : Options
  processor : Option p
  paused : Bool
  shuttingDown : Bool
  retriesClosed : Bool

namespace Controls

def act (k : Controls p) : Action p i o -> Controls p
  | .pause => { k with paused := true }
  | .resume => { k with paused := false }
  | .configure options => { k with options := options.normalized }
  | .setProcessor processor => { k with processor := some processor }
  | .beginShutdown => { k with shuttingDown := true }
  | .closeRetries => { k with retriesClosed := true }
  | .submit _ _ | .cancel _ | .cancelAll | .clearFinished | .clearCache | .dispatch
  | .finish _ _ _ | .store _ | .deliver => k

end Controls

namespace State

variable {s : State p i o} {c : Coding i o}

def controls (s : State p i o) : Controls p :=
  { options := s.options
    processor := s.processor
    paused := s.paused
    shuttingDown := s.shuttingDown
    retriesClosed := s.retriesClosed }

theorem controls_submit (c : Coding i o) (s : State p i o) (now : Int) (input : i)
    (priority : Int) : (s.submit c now input priority).state.controls = s.controls := by
  rcases exists_submit_eq c s now input priority with
    ⟨cache, ⟨_, _, _, hstate⟩ | ⟨_, _, _, hstate⟩⟩
  · rw [hstate]
    rfl
  · rw [hstate]
    unfold accept
    simp only
    split
    · rfl
    · rfl

theorem controls_act (c : Coding i o) (s : State p i o) (m : Moment p i o) :
    (s.act c m).controls = s.controls.act m.action := by
  rcases m with ⟨now, action⟩
  cases action with
  | submit input priority => exact controls_submit c s now input priority
  | cancel id =>
      rcases s.exists_cancel_eq now id with ⟨queue, records, events, hcancel, _⟩
      have hact : s.act c ⟨now, .cancel id⟩ = _ := hcancel
      rw [hact]
      rfl
  | cancelAll =>
      rcases s.exists_cancelAll_eq now with ⟨records, events, hcancel, _⟩
      have hact : s.act c ⟨now, .cancelAll⟩ = _ := hcancel
      rw [hact]
      rfl
  | beginShutdown => exact congrArg controls s.beginShutdown_eq
  | dispatch =>
      rcases s.exists_dispatch_eq now with ⟨_, _, _, _, _, _, hdispatch⟩
      have hact : s.act c ⟨now, .dispatch⟩ = _ := hdispatch
      rw [hact]
      rfl
  | finish place found elapsed =>
      unfold State.act
      simp only
      split
      next a _ =>
        rcases s.exists_finish_eq now a.id (a.outcome found) elapsed with
          ⟨_, _, _, _, _, _, _, _, _, hfinish⟩
        rw [hfinish]
        rfl
      next => rfl
  | store place =>
      rcases exists_act_store_eq c s now place with ⟨_, _, hact⟩
      rw [hact]
      rfl
  | _ => rfl

/-!
# What is set once
-/

theorem sound_options_act (c : Coding i o) (h : s.options.Sound) (m : Moment p i o) :
    (s.act c m).options.Sound := by
  have hact : (s.act c m).options = (s.controls.act m.action).options :=
    congrArg Controls.options (controls_act c s m)
  rw [hact]
  cases m.action with
  | configure options => exact Options.sound_normalized options
  | _ => exact h

theorem shuttingDown_act (c : Coding i o) (h : s.shuttingDown = true) (m : Moment p i o) :
    (s.act c m).shuttingDown = true := by
  have hact := congrArg Controls.shuttingDown (controls_act c s m)
  apply hact.trans
  cases m.action with
  | beginShutdown => rfl
  | _ => exact h

theorem retriesClosed_act (c : Coding i o) (h : s.retriesClosed = true)
    (m : Moment p i o) : (s.act c m).retriesClosed = true := by
  have hact := congrArg Controls.retriesClosed (controls_act c s m)
  apply hact.trans
  cases m.action with
  | closeRetries => rfl
  | _ => exact h

end State

/-!
# Load
-/

structure Load (p i : Type) where
  queue : Queue
  inFlight : List (Attempt p i)
  active : Nat

namespace State

variable {s : State p i o} {c : Coding i o}

def load (s : State p i o) : Load p i :=
  { queue := s.queue, inFlight := s.inFlight, active := s.active }

/-- Nothing waits, and submissions are refused. -/
structure Barred (s : State p i o) : Prop where
  queue : s.queue = []
  refused : s.refusal?.isSome

/-- Only the end of an attempt makes a difference. -/
theorem Barred.act_spec (h : s.Barred) {m : Moment p i o}
    (hm : forall place found elapsed, m.action ≠ .finish place found elapsed) :
    (s.act c m).load = s.load ∧
      (m.action ≠ .deliver -> Quiet s.events (s.act c m).events) := by
  rcases m with ⟨now, action⟩
  have hquiet := Quiet.refl s.events
  cases action with
  | submit input priority =>
      rcases Option.isSome_iff_exists.mp h.refused with ⟨refusal, hrefusal⟩
      have hsubmit : s.act c ⟨now, .submit input priority⟩ = s :=
        congrArg Change.state (submit_of_refusal? c hrefusal now input priority)
      rw [hsubmit]
      exact ⟨rfl, fun _ => hquiet⟩
  | cancel id =>
      rcases s.exists_cancel_eq now id with ⟨queue, records, events, hcancel, hleft, htold⟩
      have hqueue : queue = s.queue := by
        cases hleft with
        | inl hqueue => exact hqueue
        | inr hqueue =>
            rw [hqueue, h.queue]
            rfl
      have hact : s.act c ⟨now, .cancel id⟩ = _ := hcancel
      rw [hact, hqueue]
      exact ⟨rfl, fun _ => htold⟩
  | cancelAll =>
      rcases s.exists_cancelAll_eq now with ⟨records, events, hcancel, htold⟩
      have hact : s.act c ⟨now, .cancelAll⟩ = _ := hcancel
      rw [hact, ← h.queue]
      exact ⟨rfl, fun _ => htold⟩
  | beginShutdown =>
      have hact : s.act c ⟨now, .beginShutdown⟩ = _ := s.beginShutdown_eq
      rw [hact]
      exact ⟨rfl, fun _ => hquiet⟩
  | dispatch =>
      have hact : s.act c ⟨now, .dispatch⟩ = s :=
        congrArg Prod.fst (dispatch_of_queue_eq_nil h.queue now)
      rw [hact]
      exact ⟨rfl, fun _ => hquiet⟩
  | finish place found elapsed => exact absurd rfl (hm place found elapsed)
  | store place =>
      rcases exists_act_store_eq c s now place with ⟨_, _, hact⟩
      rw [hact]
      exact ⟨rfl, fun _ => hquiet⟩
  | deliver => exact ⟨rfl, fun hne => absurd rfl hne⟩
  | _ => exact ⟨rfl, fun _ => hquiet⟩

theorem Barred.load_act (h : s.Barred) (hflights : s.inFlight = []) (m : Moment p i o) :
    (s.act c m).load = s.load := by
  rcases m with ⟨now, action⟩
  cases action with
  | finish place found elapsed =>
      unfold State.act
      simp only
      rw [hflights]
      rfl
  | _ => exact (h.act_spec (by rintro _ _ _ ⟨⟩)).1

end State
end Scheduler
end CodeSurvey
