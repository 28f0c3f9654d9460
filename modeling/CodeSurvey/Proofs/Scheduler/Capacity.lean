import CodeSurvey.Proofs.Scheduler.QueueChanges
import CodeSurvey.Proofs.Scheduler.Signals
import Mathlib.Data.List.Induction
import Mathlib.Order.Bounds.Basic

/-!
# Worker slots and room in the queue

A task is started only while a slot is free, and taken in only while there is room in the
queue.  A task that waits again is not asked whether there is room, but it leaves a slot:
the tasks that wait and those that run are bounded together.
-/

namespace CodeSurvey
namespace Scheduler

def Action.configures : Action p i o -> Bool
  | .configure _ => true
  | _ => false

namespace State

/-!
# Telling of a start
-/

/-- In the state `u` a dispatch comes to the task with an id. -/
inductive Reaches (now : Int) (processor : p) (id : TaskId) (u : State p i o) :
    Queue -> State p i o -> Prop where
  | here (hid : next.id = id) : Reaches now processor id u (next :: rest) u
  | start (hslot : s.hasFreeSlot = true) (hpending : s.pending? next.id = some r)
      (h : Reaches now processor id u rest (s.startTask now processor r.task).1) :
      Reaches now processor id u (next :: rest) s
  | skip (hpending : s.pending? next.id = none) (h : Reaches now processor id u rest s) :
      Reaches now processor id u (next :: rest) s

variable {s t : State p i o} {c : Coding i o} {now : Int} {processor : p}

/-- Every start in `told` is told by a dispatch in a state with a free slot. -/
def Paced (now : Int) (processor : p) (q : Queue) (s : State p i o) (told : List Event) :
    Prop :=
  forall before id attempt after, told = before ++ .started id attempt :: after ->
    exists u, Reaches now processor id u q s ∧ u.events = s.events ++ before ∧
      u.hasFreeSlot = true

theorem paced_nil (now : Int) (processor : p) (q : Queue) (s : State p i o) :
    Paced now processor q s [] := by
  intro before id attempt after hsplit
  cases before with
  | nil => cases hsplit
  | cons _ _ => cases hsplit

theorem Paced.skip {next : Waiting} {rest : Queue} {told : List Event}
    (h : Paced now processor rest s told) (hpending : s.pending? next.id = none) :
    Paced now processor (next :: rest) s told := by
  intro before id attempt after hsplit
  rcases h before id attempt after hsplit with ⟨u, hreaches, hevents, hslot⟩
  exact ⟨u, .skip hpending hreaches, hevents, hslot⟩

theorem Paced.start {next : Waiting} {rest : Queue} {told : List Event} {r : Record i o}
    (h : Paced now processor rest (s.startTask now processor r.task).1 told)
    (hslot : s.hasFreeSlot = true) (hpending : s.pending? next.id = some r) :
    Paced now processor (next :: rest) s (r.startedEvent :: told) := by
  intro before id attempt after hsplit
  cases before with
  | nil =>
      have hid := id_of_record? (record?_of_pending? hpending).1
      cases hsplit
      exact ⟨s, .here hid.symm, (List.append_nil _).symm, hslot⟩
  | cons first before =>
      rcases List.cons.inj hsplit with ⟨rfl, htold⟩
      rcases h before id attempt after htold with ⟨u, hreaches, hevents, hfree⟩
      refine ⟨u, .start hslot hpending hreaches, ?_, hfree⟩
      rw [hevents]
      exact List.append_assoc _ _ _

theorem exists_paced_startFrom (now : Int) (processor : p) (q : Queue) (s : State p i o) :
    exists told, (startFrom now processor q s).1.events = s.events ++ told ∧
      Paced now processor q s told := by
  induction q generalizing s with
  | nil => exact ⟨[], (List.append_nil _).symm, paced_nil now processor [] s⟩
  | cons next rest ih =>
      unfold startFrom
      split
      next hslot =>
        split
        next r hpending =>
          rcases ih (s.startTask now processor r.task).1 with ⟨told, hevents, hpaced⟩
          refine ⟨r.startedEvent :: told, ?_, hpaced.start hslot hpending⟩
          exact hevents.trans (List.append_assoc _ _ _)
        next hpending =>
          rcases ih s with ⟨told, hevents, hpaced⟩
          exact ⟨told, hevents, hpaced.skip hpending⟩
      next => exact ⟨[], (List.append_nil _).symm, paced_nil now processor _ s⟩

def Unstarted (told : List Event) : Prop :=
  forall id attempt, .started id attempt ∉ told

theorem unstarted_of_quiet {log log' : List Event} (h : Event.Quiet log log') :
    exists told, log' = log ++ told ∧ Unstarted told := by
  rcases h with ⟨told, hlog, htold⟩
  exact ⟨told, hlog, fun id attempt hmem => nomatch htold _ hmem⟩

theorem exists_unstarted_accept (s : State p i o) (now : Int) (input : i) (priority : Int)
    (key : Option String) (cached : Option o) :
    exists told, (s.accept now input priority key cached).1.events = s.events ++ told ∧
      Unstarted told := by
  cases cached with
  | none => exact ⟨[.queued _ priority], rfl, by simp [Unstarted]⟩
  | some value =>
      exact ⟨[.queued _ priority, .completed _ .zero true], List.append_assoc _ _ _,
        by simp [Unstarted]⟩

theorem exists_unstarted_submit (c : Coding i o) (s : State p i o) (now : Int) (input : i)
    (priority : Int) :
    exists told, (s.submit c now input priority).state.events = s.events ++ told ∧
      Unstarted told := by
  rcases exists_submit_eq c s now input priority with
    ⟨cache, ⟨_, _, _, hstate⟩ | ⟨_, _, _, hstate⟩⟩
  · rw [hstate]
    exact ⟨[], (List.append_nil _).symm, by simp [Unstarted]⟩
  · rw [hstate]
    exact exists_unstarted_accept { s with cache } _ _ _ _ _

theorem exists_unstarted_act (c : Coding i o) (s : State p i o) {m : Moment p i o}
    (hdispatch : m.action ≠ .dispatch) (hdeliver : m.action ≠ .deliver) :
    exists told, (s.act c m).events = s.events ++ told ∧ Unstarted told := by
  rcases m with ⟨now, action⟩
  cases action with
  | submit input priority => exact exists_unstarted_submit c s now input priority
  | cancel id =>
      rcases s.exists_cancel_eq now id with ⟨_, _, events, hcancel, _, hquiet⟩
      have hact : s.act c ⟨now, .cancel id⟩ = _ := hcancel
      rw [hact]
      exact unstarted_of_quiet hquiet
  | cancelAll =>
      rcases s.exists_cancelAll_eq now with ⟨_, events, hcancel, hquiet⟩
      have hact : s.act c ⟨now, .cancelAll⟩ = _ := hcancel
      rw [hact]
      exact unstarted_of_quiet hquiet
  | beginShutdown =>
      have hact : s.act c ⟨now, .beginShutdown⟩ = _ := s.beginShutdown_eq
      rw [hact]
      exact unstarted_of_quiet (Event.Quiet.refl s.events)
  | dispatch => exact absurd rfl hdispatch
  | finish place found elapsed =>
      unfold State.act
      simp only
      split
      next a _ =>
        rcases (settles_finish s now a.id (a.outcome found) elapsed).events with
          ⟨told, hevents, htold⟩
        exact ⟨told, hevents, fun id attempt hmem => nomatch htold _ hmem⟩
      next => exact unstarted_of_quiet (Event.Quiet.refl s.events)
  | store place =>
      rcases exists_act_store_eq c s now place with ⟨_, _, hact⟩
      rw [hact]
      exact unstarted_of_quiet (Event.Quiet.refl s.events)
  | deliver => exact absurd rfl hdeliver
  | _ => exact unstarted_of_quiet (Event.Quiet.refl s.events)

end State

/-!
# Slots and room
-/

/-- How much of a scheduler is in use, and how many slots were taken at the most. -/
structure Usage where
  waiting : Nat
  active : Nat
  peak : Nat

namespace Usage

variable {o : Options} {x y z : Usage}

/-- Some of those that wait are started, as far as there are slots, or leave. -/
structure Advances (o : Options) (x y : Usage) : Prop where
  load : y.waiting + y.active ≤ x.waiting + x.active
  active : x.active ≤ y.active
  slots : y.active = x.active ∨ y.active ≤ o.maxWorkers
  peak : x.active ≤ x.peak -> y.peak = max x.peak y.active

theorem Advances.leave (hwaiting : y.waiting ≤ x.waiting) (hactive : y.active = x.active)
    (hpeak : y.peak = x.peak) : Advances o x y where
  load := hactive ▸ Nat.add_le_add_right hwaiting _
  active := hactive.ge
  slots := Or.inl hactive
  peak := fun hx => by rw [hpeak, hactive, max_eq_left hx]

theorem Advances.trans (h : Advances o x y) (h' : Advances o y z) : Advances o x z where
  load := h'.load.trans h.load
  active := h.active.trans h'.active
  slots := by
    cases h'.slots with
    | inl heq => exact heq ▸ h.slots
    | inr hle => exact Or.inr hle
  peak := by
    intro hx
    have hy := h.peak hx
    rw [h'.peak (hy ▸ le_max_right _ _), hy, max_assoc, max_eq_right h'.active]

/-- What an action does to the tasks that wait and to the slots that are taken. -/
inductive Changes (o : Options) (x y : Usage) : Prop where
  /-- One more task waits, for which there was room. -/
  | enqueue (hroom : x.waiting < o.maxQueueSize) (hwaiting : y.waiting = x.waiting + 1)
      (hactive : y.active = x.active) (hpeak : y.peak = x.peak)
  | advance (h : Advances o x y)
  /-- A slot is given back, and its task may wait again. -/
  | free (hwaiting : y.waiting ≤ x.waiting + 1) (hactive : y.active + 1 = x.active)
      (hpeak : y.peak = x.peak)

theorem changes_of_leave (hwaiting : y.waiting ≤ x.waiting) (hactive : y.active = x.active)
    (hpeak : y.peak = x.peak) : Changes o x y :=
  .advance (.leave hwaiting hactive hpeak)

theorem Changes.peak_eq (h : Changes o x y) (hx : x.active ≤ x.peak) :
    y.peak = max x.peak y.active := by
  cases h with
  | enqueue _ _ hactive hpeak => rw [hpeak, hactive, max_eq_left hx]
  | advance h => exact h.peak hx
  | free _ hactive hpeak =>
      have hle : y.active ≤ x.peak := (Nat.le_of_succ_le hactive.le).trans hx
      rw [hpeak, max_eq_left hle]

theorem Changes.active_le (h : Changes o x y) :
    y.active ≤ x.active ∨ y.active ≤ o.maxWorkers := by
  cases h with
  | enqueue _ _ hactive _ => exact Or.inl hactive.le
  | advance h => exact h.slots.imp_left Eq.le
  | free _ hactive _ => exact Or.inl (Nat.le_of_succ_le hactive.le)

/-- Those that run are within their limit, and together with those that wait within the sum
of both limits. -/
structure Fits (o : Options) (x : Usage) : Prop where
  active : x.active ≤ o.maxWorkers
  both : x.waiting + x.active ≤ o.maxQueueSize + o.maxWorkers

theorem Changes.fits (h : Changes o x y) (hx : Fits o x) : Fits o y where
  active := by
    cases h.active_le with
    | inl hle => exact hle.trans hx.active
    | inr hle => exact hle
  both := by
    cases h with
    | enqueue hroom hwaiting hactive _ =>
        -- Only here the sum grows, and there was room for one more.
        rw [hwaiting, hactive]
        exact Nat.add_le_add hroom hx.active
    | advance h => exact h.load.trans hx.both
    | free hwaiting hactive _ =>
        have hboth := hx.both
        omega

end Usage

namespace State

open Usage (Advances Changes changes_of_leave)

variable {s : State p i o} {c : Coding i o}

def usage (s : State p i o) : Usage :=
  { waiting := s.queue.length, active := s.active, peak := s.peakRunning }

theorem changes_refl (s : State p i o) : Changes s.options s.usage s.usage :=
  changes_of_leave (Nat.le_refl _) rfl rfl

theorem changes_accept (s : State p i o) (now : Int) (input : i) (priority : Int)
    (key : Option String) (cached : Option o)
    (hroom : cached = none -> s.queue.length < s.options.maxQueueSize) :
    Changes s.options s.usage (s.accept now input priority key cached).1.usage := by
  cases cached with
  | none => exact .enqueue (hroom rfl) (Queue.length_enter _ _) rfl rfl
  | some value => exact changes_of_leave (Nat.le_refl _) rfl rfl

theorem changes_submit (c : Coding i o) (s : State p i o) (now : Int) (input : i)
    (priority : Int) :
    Changes s.options s.usage (s.submit c now input priority).state.usage := by
  rcases exists_submit_eq c s now input priority with
    ⟨cache, ⟨_, _, _, hstate⟩ | ⟨_, hroom, _, hstate⟩⟩
  · rw [hstate]
    exact changes_refl s
  · rw [hstate]
    exact changes_accept { s with cache } now input priority _ _ hroom

theorem advances_startFrom (now : Int) (processor : p) (q : Queue) (s : State p i o) :
    Advances s.options ⟨q.length, s.active, s.peakRunning⟩
      (startFrom now processor q s).1.usage := by
  induction q generalizing s with
  | nil => exact .leave (Nat.le_refl _) rfl rfl
  | cons next rest ih =>
      unfold startFrom
      split
      next hslot =>
        split
        next r hpending =>
          rcases Bool.and_eq_true_iff.mp hslot with ⟨_, hfree⟩
          have hstarted : Advances s.options ⟨rest.length + 1, s.active, s.peakRunning⟩
              ⟨rest.length, s.active + 1, max s.peakRunning (s.active + 1)⟩ := by
            constructor
            case load => exact (Nat.succ_add_eq_add_succ _ _).ge
            case active => exact Nat.le_succ _
            case slots => exact Or.inr (of_decide_eq_true hfree)
            case peak => exact fun _ => rfl
          exact hstarted.trans (ih (s.startTask now processor r.task).1)
        next =>
          have hleft : Advances s.options ⟨rest.length + 1, s.active, s.peakRunning⟩
              ⟨rest.length, s.active, s.peakRunning⟩ := .leave (Nat.le_succ _) rfl rfl
          exact hleft.trans (ih s)
      next => exact .leave (Nat.le_refl _) rfl rfl

/-- What takes worker slots, how many are taken, and how many were taken at the most. -/
def slots (s : State p i o) : List (Attempt p i) × Nat × Nat :=
  (s.inFlight, s.active, s.peakRunning)

theorem slots_finish (s : State p i o) (now : Int) (id : TaskId)
    (outcome : Except Failure o) (elapsed : Time.Span) :
    (s.finish now id outcome elapsed).state.slots = (s.release id).slots := by
  unfold finish
  simp only
  split
  next =>
    rcases exists_emitIdle_eq (s.release id) with ⟨_, hidle, _⟩
    show (s.release id).emitIdle.slots = _
    rw [hidle]
    rfl
  next r _ =>
    rcases exists_concluded_eq (s.release id) now r outcome elapsed with
      ⟨_, _, _, _, _, _, hconcluded⟩
    rcases exists_emitIdle_eq ((s.release id).conclude now r outcome elapsed).1 with
      ⟨_, hidle, _⟩
    show ((s.release id).conclude now r outcome elapsed).1.emitIdle.slots = _
    rw [hidle, hconcluded]
    rfl

theorem Consistent.changes_finish (h : s.Consistent) {a : Attempt p i} (ha : a ∈ s.inFlight)
    (now : Int) (outcome : Except Failure o) (elapsed : Time.Span) :
    Changes s.options s.usage (s.finish now a.id outcome elapsed).state.usage := by
  have hslots := slots_finish s now a.id outcome elapsed
  have hactive := congrArg (fun slots => slots.2.1) hslots
  have hpeak := congrArg (fun slots => slots.2.2) hslots
  refine .free ?_ ?_ hpeak
  · show (s.finish now a.id outcome elapsed).state.queue.length ≤ s.queue.length + 1
    rcases (settles_finish s now a.id outcome elapsed).queue with hqueue | ⟨w, hqueue⟩
    · exact (congrArg List.length hqueue).le.trans (Nat.le_succ _)
    · exact ((congrArg List.length hqueue).trans (Queue.length_enter w s.queue)).le
  · exact (congrArg Nat.succ hactive).trans (h.active_release ha)

theorem Consistent.changes_act (h : s.Consistent) (m : Moment p i o) :
    Changes s.options s.usage (s.act c m).usage := by
  rcases m with ⟨now, action⟩
  cases action with
  | submit input priority => exact changes_submit c s now input priority
  | cancel id =>
      rcases s.exists_cancel_eq now id with ⟨queue, _, _, hcancel, hleft, _⟩
      have hact : s.act c ⟨now, .cancel id⟩ = _ := hcancel
      rw [hact]
      refine changes_of_leave ?_ rfl rfl
      cases hleft with
      | inl hqueue => exact (congrArg List.length hqueue).le
      | inr hqueue =>
          show queue.length ≤ s.queue.length
          rw [hqueue]
          exact List.length_filter_le _ _
  | cancelAll =>
      rcases s.exists_cancelAll_eq now with ⟨_, _, hcancel, _⟩
      have hact : s.act c ⟨now, .cancelAll⟩ = _ := hcancel
      rw [hact]
      exact changes_of_leave (Nat.zero_le _) rfl rfl
  | beginShutdown =>
      have hact : s.act c ⟨now, .beginShutdown⟩ = _ := s.beginShutdown_eq
      rw [hact]
      exact changes_refl s
  | dispatch =>
      unfold State.act
      simp only
      unfold State.dispatch
      split
      next processor _ => exact .advance (advances_startFrom now processor s.queue s)
      next => exact changes_refl s
  | finish place found elapsed =>
      unfold State.act
      simp only
      split
      next a hplace =>
        exact h.changes_finish (List.mem_of_getElem? hplace) now (a.outcome found) elapsed
      next => exact changes_refl s
  | store place =>
      rcases exists_act_store_eq c s now place with ⟨_, _, hact⟩
      rw [hact]
      exact changes_refl s
  | _ => exact changes_refl s

/-!
# Runs
-/

theorem Consistent.exists_active_le (h : s.Consistent) (hs : s.active ≤ s.options.maxWorkers)
    (ms : List (Moment p i o)) :
    exists earlier, earlier <+: ms ∧
      (s.run c ms).active ≤ (s.run c earlier).options.maxWorkers := by
  induction ms using List.reverseRecOn with
  | nil => exact ⟨[], List.prefix_refl _, hs⟩
  | append_singleton ms m ih =>
      have hact := ((h.run (c := c) ms).changes_act (c := c) m).active_le
      rw [run_concat]
      cases hact with
      | inl hle =>
          rcases ih with ⟨earlier, hearlier, hslots⟩
          exact ⟨earlier, hearlier.trans (List.prefix_append _ _), hle.trans hslots⟩
      | inr hle => exact ⟨ms, List.prefix_append _ _, hle⟩

/-- The peak is the largest number of slots that were taken at any time. -/
theorem Consistent.isGreatest_peak (h : s.Consistent) (hs : s.peakRunning = s.active)
    (ms : List (Moment p i o)) :
    IsGreatest {n | exists earlier, earlier <+: ms ∧ n = (s.run c earlier).active}
      (s.run c ms).peakRunning := by
  induction ms using List.reverseRecOn with
  | nil =>
      constructor
      · exact ⟨[], List.prefix_refl _, hs⟩
      · rintro n ⟨earlier, hearlier, rfl⟩
        rw [List.prefix_nil.mp hearlier]
        exact hs.ge
  | append_singleton ms m ih =>
      have hle : (s.run c ms).active ≤ (s.run c ms).peakRunning :=
        ih.2 ⟨ms, List.prefix_refl _, rfl⟩
      have hpeak := ((h.run (c := c) ms).changes_act (c := c) m).peak_eq hle
      have htimes : {n | exists earlier, earlier <+: ms ++ [m] ∧
            n = (s.run c earlier).active} =
          insert (s.run c (ms ++ [m])).active
            {n | exists earlier, earlier <+: ms ∧ n = (s.run c earlier).active} := by
        ext n
        simp only [Set.mem_ofPred_eq, Set.mem_insert_iff, List.prefix_concat_iff, or_and_right,
          exists_or, exists_eq_left]
      rw [htimes, run_concat]
      have hact : ((s.run c ms).act c m).peakRunning = max (s.run c ms).peakRunning
        ((s.run c ms).act c m).active := hpeak
      rw [hact, max_comm]
      exact ih.insert _

/-- Nobody changes the options. -/
def Unconfigured (ms : List (Moment p i o)) : Prop :=
  forall m, m ∈ ms -> m.action.configures = false

theorem options_act (c : Coding i o) (s : State p i o) {m : Moment p i o}
    (hm : m.action.configures = false) : (s.act c m).options = s.options := by
  have hact := congrArg Controls.options (controls_act c s m)
  apply hact.trans
  cases haction : m.action with
  | configure options =>
      rw [haction] at hm
      cases hm
  | _ => rfl

theorem options_run (c : Coding i o) (s : State p i o) {ms : List (Moment p i o)}
    (hms : Unconfigured ms) : (s.run c ms).options = s.options := by
  induction ms generalizing s with
  | nil => rfl
  | cons m ms ih =>
      have hrest := ih (s.act c m) fun m' hm' => hms m' (List.mem_cons_of_mem m hm')
      exact hrest.trans (options_act c s (hms m List.mem_cons_self))

theorem Consistent.fits_run (h : s.Consistent) (hs : s.usage.Fits s.options)
    {ms : List (Moment p i o)} (hms : Unconfigured ms) :
    (s.run c ms).usage.Fits s.options := by
  induction ms generalizing s with
  | nil => exact hs
  | cons m ms ih =>
      have hoptions := options_act c s (hms m List.mem_cons_self)
      have hact := (h.changes_act (c := c) m).fits hs
      rw [← hoptions] at hact ⊢
      exact ih (h.act m) hact fun m' hm' => hms m' (List.mem_cons_of_mem m hm')

end State

namespace Course

open State (Reaches Unconfigured)

variable {x : Course p i o} {c : Coding i o}

theorem exists_paced_act (x : Course p i o) (m : Moment p i o) :
    exists told, (x.act c m).log = x.log ++ told ∧
      forall before id attempt after, told = before ++ .started id attempt :: after ->
        m.action = .dispatch ∧ exists processor u, x.state.processor = some processor ∧
          Reaches m.now processor id u x.state.queue x.state ∧
          u.events = x.state.events ++ before ∧ u.hasFreeSlot = true := by
  by_cases hdispatch : m.action = .dispatch
  · rcases m with ⟨now, action⟩
    cases hdispatch
    have hlog : (x.act c ⟨now, .dispatch⟩).log =
        x.delivered ++ (x.state.dispatch now).1.events := rfl
    rw [hlog]
    unfold State.dispatch
    split
    next processor hprocessor =>
      rcases State.exists_paced_startFrom now processor x.state.queue x.state with
        ⟨told, hevents, hpaced⟩
      refine ⟨told, ?_, ?_⟩
      · rw [hevents, ← List.append_assoc]
        rfl
      · intro before id attempt after hsplit
        rcases hpaced before id attempt after hsplit with ⟨u, hreaches, hevents, hslot⟩
        exact ⟨rfl, processor, u, hprocessor, hreaches, hevents, hslot⟩
    next =>
      refine ⟨[], (List.append_nil _).symm, ?_⟩
      intro before id attempt after hsplit
      exact absurd hsplit (by simp)
  · have hunstarted : exists told, (x.act c m).log = x.log ++ told ∧ State.Unstarted told := by
      by_cases hdeliver : m.action = .deliver
      · exact ⟨[], log_deliver hdeliver, fun _ _ he => nomatch he⟩
      · rcases State.exists_unstarted_act c x.state hdispatch hdeliver with
          ⟨told, hevents, htold⟩
        refine ⟨told, ?_, htold⟩
        rw [log_act_of_ne hdeliver, hevents, ← List.append_assoc]
        rfl
    rcases hunstarted with ⟨told, hlog, htold⟩
    refine ⟨told, hlog, ?_⟩
    intro before id attempt after hsplit
    exact absurd (hsplit ▸ List.mem_append_right _ List.mem_cons_self) (htold id attempt)

/-- Whatever happens to a new scheduler, in whatever order: a start is told only by a
dispatch that is not paused and finds fewer slots taken than there are at that moment.
There are never more slots taken than there were at the most so far, and the peak is the
largest number of slots that were taken so far.  When nobody changes the options, those
that run are within their limit, and together with those that wait within both limits,
though a task may wait again where the queue is full. -/
theorem capacity_run (c : Coding i o) (options : Options) (cacheOptions : Cache.Options)
    {ids : IdSource} (hids : Function.Injective ids.nth) (ms : List (Moment p i o)) :
    let s₀ : State p i o := (State.new options cacheOptions ids).state
    let x := (start s₀).run c ms
    let s := x.state
    (forall m, exists told, (x.act c m).log = x.log ++ told ∧
        forall before id attempt after, told = before ++ .started id attempt :: after ->
          m.action = .dispatch ∧ exists processor u, s.processor = some processor ∧
            Reaches m.now processor id u s.queue s ∧ u.events = s.events ++ before ∧
            u.paused = false ∧ u.active < u.options.maxWorkers) ∧
      (exists earlier, earlier <+: ms ∧
        s.active ≤ (s₀.run c earlier).options.maxWorkers) ∧
      IsGreatest {n | exists earlier, earlier <+: ms ∧ n = (s₀.run c earlier).active}
        s.stats.peakRunning ∧
      (Unconfigured ms ->
        s.active ≤ options.normalized.maxWorkers ∧
          s.queue.length + s.active ≤
            options.normalized.maxQueueSize + options.normalized.maxWorkers) := by
  intro s₀ x s
  have hs₀ : s₀.Consistent := State.consistent_new options cacheOptions hids
  have hrun : s = s₀.run c ms := state_run c (start s₀) ms
  refine ⟨?_, ?_, ?_, ?_⟩
  · intro m
    rcases exists_paced_act (c := c) x m with ⟨told, hlog, hpaced⟩
    refine ⟨told, hlog, ?_⟩
    intro before id attempt after hsplit
    rcases hpaced before id attempt after hsplit with
      ⟨hdispatch, processor, u, hprocessor, hreaches, hevents, hslot⟩
    rcases Bool.and_eq_true_iff.mp hslot with ⟨hpaused, hfree⟩
    exact ⟨hdispatch, processor, u, hprocessor, hreaches, hevents,
      (Bool.not_eq_true' _).mp hpaused, of_decide_eq_true hfree⟩
  · rw [hrun]
    exact hs₀.exists_active_le (Nat.zero_le _) ms
  · have hpeak := hs₀.isGreatest_peak (c := c) rfl ms
    rw [← hrun] at hpeak
    exact hpeak
  · intro hms
    have hempty : s₀.usage.Fits s₀.options := ⟨Nat.zero_le _, Nat.zero_le _⟩
    have hfits := hs₀.fits_run (c := c) hempty hms
    rw [← hrun] at hfits
    exact ⟨hfits.active, hfits.both⟩

/-- With one slot and room for one task, a task waits again beside the one that came while
the scheduler was paused. -/
theorem capacity_retried :
    let c : Coding String String := { input := fun _ => none, output := .text }
    let options : Options :=
      { Options.forWorkers 1 with minWorkers := 1, maxWorkers := 1, maxQueueSize := 1 }
    let ms : List (Moment Unit String String) :=
      [⟨0, .setProcessor ()⟩, ⟨1, .submit "a" 0⟩, ⟨1, .dispatch⟩, ⟨2, .pause⟩,
        ⟨2, .submit "b" 0⟩, ⟨3, .finish 0 (.error (.execution "no")) .zero⟩,
        ⟨4, .resume⟩]
    let s₀ := (State.new options .default (.sequential "task")).state
    let x := (start s₀).run c ms
    let s := x.state
    let m : Moment Unit String String := ⟨4, .dispatch⟩
    (x.act c m).log = x.log ++ [.started ⟨"task-1"⟩ 2] ∧
      (exists u, Reaches 4 () ⟨"task-1"⟩ u s.queue s ∧ u.paused = false ∧
        u.active < u.options.maxWorkers) ∧
      s.queue.length + s.active = 2 ∧ s.queue.length + s.active ≤ 1 + 1 ∧
      IsGreatest {n | exists earlier, earlier <+: ms ∧ n = (s₀.run c earlier).active} 1 := by
  intro c options ms s₀ x s m
  rcases capacity_run c options .default (State.injective_sequential "task") ms with
    ⟨hpaced, _, hpeak, hfits⟩
  have hlog : (x.act c m).log = x.log ++ [.started ⟨"task-1"⟩ 2] := by decide +kernel
  have hms : Unconfigured ms := by simp [Unconfigured, ms, Action.configures]
  refine ⟨hlog, ?_, by decide +kernel, (hfits hms).2, ?_⟩
  · rcases hpaced m with ⟨told, hlog', htold⟩
    have heq := List.append_cancel_left (hlog'.symm.trans hlog)
    rcases htold [] ⟨"task-1"⟩ 2 [] heq with
      ⟨_, _, u, _, hreaches, _, hpaused, hfree⟩
    exact ⟨u, hreaches, hpaused, hfree⟩
  · have hone : x.state.stats.peakRunning = 1 := by decide +kernel
    exact hone ▸ hpeak

end Course
end Scheduler
end CodeSurvey
