import CodeSurvey.Proofs.Scheduler.Fate

/-!
# How long tasks take

The instants at which the attempts at a task start and end are read off a run, from what is
in flight before and after each action.  The duration of a task begins with the start of its
last attempt.  It ends with the end of that attempt, but for a task that is cancelled while it
waits to be tried again: then the time that it waited comes on top.
-/

namespace CodeSurvey
namespace Scheduler
namespace State

variable {s t : State p i o} {c : Coding i o} {m : Moment p i o} {id : TaskId}

/-!
# Instants
-/

/-- When the actions came that took the scheduler from one state to the next in this way. -/
def instants (c : Coding i o) (q : State p i o -> State p i o -> Prop) [DecidableRel q] :
    State p i o -> List (Moment p i o) -> List Int
  | _, [] => []
  | s, m :: ms => (if q s (s.act c m) then [m.now] else []) ++ instants c q (s.act c m) ms

theorem instants_concat (c : Coding i o) (q : State p i o -> State p i o -> Prop)
    [DecidableRel q] (s : State p i o) (ms : List (Moment p i o)) (m : Moment p i o) :
    s.instants c q (ms ++ [m]) =
      s.instants c q ms ++ if q (s.run c ms) ((s.run c ms).act c m) then [m.now] else [] := by
  induction ms generalizing s with
  | nil => exact List.append_nil _
  | cons first ms ih =>
      show _ ++ instants c q (s.act c first) (ms ++ [m]) = _
      rw [ih, ← List.append_assoc]
      rfl

theorem mem_instants {q : State p i o -> State p i o -> Prop} [DecidableRel q]
    {ms : List (Moment p i o)} {instant : Int} (h : instant ∈ s.instants c q ms) :
    exists m, m ∈ ms ∧ m.now = instant := by
  induction ms generalizing s with
  | nil => cases h
  | cons first ms ih =>
      cases List.mem_append.mp h with
      | inl hfirst =>
          split at hfirst
          next => exact ⟨first, List.mem_cons_self, (List.mem_singleton.mp hfirst).symm⟩
          next => cases hfirst
      | inr hrest =>
          rcases ih hrest with ⟨m, hm, hnow⟩
          exact ⟨m, List.mem_cons_of_mem first hm, hnow⟩

theorem Consistent.instants_eq_nil (h : s.Consistent)
    {q : State p i o -> State p i o -> Prop} [DecidableRel q]
    (hq : forall (s : State p i o) (m : Moment p i o), s.Consistent -> q s (s.act c m) ->
      (s.act c m).Issued id)
    {ms : List (Moment p i o)} (hid : ¬ (s.run c ms).Issued id) : s.instants c q ms = [] := by
  induction ms using List.reverseRecOn with
  | nil => rfl
  | append_singleton ms m ih =>
      rw [run_append] at hid
      have hbefore : ¬ (s.run c ms).Issued id := fun hissued => hid (hissued.act c m)
      rw [instants_concat, ih hbefore, if_neg fun hact => hid (hq _ m (h.run ms) hact)]
      rfl

/-!
# Attempts and withdrawals
-/

def Tries (s : State p i o) (id : TaskId) : Prop :=
  id ∈ s.inFlight.map Attempt.id

instance (s : State p i o) (id : TaskId) : Decidable (s.Tries id) :=
  inferInstanceAs (Decidable (id ∈ s.inFlight.map Attempt.id))

def hasStatus (s : State p i o) (id : TaskId) (status : Status) : Bool :=
  (s.task? id).map Task.status = some status

def Begins (id : TaskId) (s t : State p i o) : Prop :=
  ¬ s.Tries id ∧ t.Tries id

def Stops (id : TaskId) (s t : State p i o) : Prop :=
  s.Tries id ∧ ¬ t.Tries id

def Withdraws (id : TaskId) (s t : State p i o) : Prop :=
  s.hasStatus id .pending ∧ t.hasStatus id .cancelled

instance (id : TaskId) : DecidableRel (Begins id : State p i o -> State p i o -> Prop) :=
  fun s t => inferInstanceAs (Decidable (¬ s.Tries id ∧ t.Tries id))

instance (id : TaskId) : DecidableRel (Stops id : State p i o -> State p i o -> Prop) :=
  fun s t => inferInstanceAs (Decidable (s.Tries id ∧ ¬ t.Tries id))

instance (id : TaskId) : DecidableRel (Withdraws id : State p i o -> State p i o -> Prop) :=
  fun s t => inferInstanceAs (Decidable (s.hasStatus id .pending ∧ t.hasStatus id .cancelled))

theorem Consistent.tries_iff (h : s.Consistent) :
    s.Tries id ↔ s.hasStatus id .running = true := by
  unfold Tries hasStatus task?
  rw [h.mem_inFlight_iff, Option.map_map, decide_eq_true_iff, Option.map_eq_some_iff]
  rfl

theorem hasStatus_eq {task : Task i o} (htask : s.task? id = some task) (status : Status) :
    s.hasStatus id status = decide (task.status = status) := by
  unfold hasStatus
  rw [htask]
  simp only [Option.map_some, Option.some.injEq]

theorem Consistent.issued_of_hasStatus (h : s.Consistent) {status : Status}
    (hstatus : s.hasStatus id status = true) : s.Issued id := by
  rcases Option.map_eq_some_iff.mp (of_decide_eq_true hstatus) with ⟨task, htask, _⟩
  exact h.issued htask

theorem Consistent.issued_of_begins (h : s.Consistent)
    (hbegins : Begins id s (s.act c m)) : (s.act c m).Issued id := by
  have hact := h.act (c := c) m
  exact hact.issued_of_hasStatus (hact.tries_iff.mp hbegins.2)

theorem Consistent.issued_of_stops (h : s.Consistent)
    (hstops : Stops id s (s.act c m)) : (s.act c m).Issued id :=
  (h.issued_of_hasStatus (h.tries_iff.mp hstops.1)).act c m

theorem Consistent.issued_of_withdraws (h : s.Consistent)
    (hwithdraws : Withdraws id s (s.act c m)) : (s.act c m).Issued id :=
  (h.issued_of_hasStatus hwithdraws.1).act c m

end State

namespace Told

variable {graceElapsed : Prop} {id : TaskId} {status : Status} {n : Nat}
  {events : List Event}

theorem of_answered (h : Told graceElapsed id status n events)
    (hmem : .completed id .zero true ∈ events) :
    status = .completed ∧ events.countP Event.isStarted = 0 := by
  have hlast : events.getLast? = some (.completed id .zero true) := by
    have hsplit := List.dropLast_concat_getLast h.ne_nil
    rw [← hsplit] at hmem
    cases List.mem_append.mp hmem with
    | inl hearlier => cases h.not_isFinal_of_mem_dropLast _ hearlier
    | inr heq => rw [List.getLast?_eq_some_getLast h.ne_nil, List.mem_singleton.mp heq]
  cases h with
  | queued => cases hlast
  | answered => exact ⟨rfl, rfl⟩
  | started _ => rw [List.getLast?_concat] at hlast; cases hlast
  | cancelled _ => rw [List.getLast?_concat] at hlast; cases hlast
  | completed _ => rw [List.getLast?_concat] at hlast; cases hlast
  | retrying _ => rw [List.getLast?_concat] at hlast; cases hlast
  | failed _ => rw [List.getLast?_concat] at hlast; cases hlast
  | givenUp _ _ => rw [List.getLast?_concat] at hlast; cases hlast

end Told

/-!
# Time stamps
-/

def NoneAfter (now : Int) (instants : List Int) : Prop :=
  forall instant, instant ∈ instants -> instant ≤ now

/-- How a task became what it is, with the instants at which attempts at it started and ended,
and at which it was cancelled while it waited. -/
inductive Clocked (cached : Prop) :
    Task i o -> List Int -> List Int -> List Int -> Prop where
  | new (id : TaskId) (input : i) (priority now : Int) :
      Clocked cached (Task.new id input priority now) [] [] []
  | answered (id : TaskId) (input : i) (priority now : Int) (value : o) (hcached : cached) :
      Clocked cached (State.answered (Task.new id input priority now) value now) [] [] []
  | started {t : Task i o} (h : Clocked cached t starts ends withdrawals)
      (hstatus : t.status = .pending) (now : Int) :
      Clocked cached (State.started t now) (starts ++ [now]) ends withdrawals
  | cancelled {t : Task i o} (h : Clocked cached t starts ends withdrawals)
      (hstatus : t.status = .pending) (hnow : NoneAfter now (starts ++ ends)) :
      Clocked cached (State.cancelled t now) starts ends (withdrawals ++ [now])
  | succeeded {t : Task i o} (h : Clocked cached t starts ends withdrawals)
      (hstatus : t.status = .running) (value : o)
      (hnow : NoneAfter now (starts ++ ends)) :
      Clocked cached (State.succeeded t value now) starts (ends ++ [now]) withdrawals
  | retried {t : Task i o} (h : Clocked cached t starts ends withdrawals)
      (hstatus : t.status = .running) (error : Failure)
      (hnow : NoneAfter now (starts ++ ends)) :
      Clocked cached (State.retried t error) starts (ends ++ [now]) withdrawals
  | givenUp {t : Task i o} (h : Clocked cached t starts ends withdrawals)
      (hstatus : t.status = .running) (hnow : NoneAfter now (starts ++ ends)) :
      Clocked cached (State.givenUp t now) starts (ends ++ [now]) withdrawals
  | failed {t : Task i o} (h : Clocked cached t starts ends withdrawals)
      (hstatus : t.status = .running) (error : Failure)
      (hnow : NoneAfter now (starts ++ ends)) :
      Clocked cached (State.failed t error now) starts (ends ++ [now]) withdrawals

/-- What is reported as the duration of a task that came to its end. -/
inductive Reported (cached : Prop) (starts ends withdrawals : List Int)
    (duration : Option Time.Span) : Prop where
  | answered (hcached : cached) (hstarts : starts = []) (hduration : duration = some .zero)
  | unstarted (hcached : ¬ cached) (hstarts : starts = []) (hduration : duration = none)
  | ended (hcached : ¬ cached) (hstarts : starts = earlier ++ [start])
      (hends : ends = before ++ [stop]) (hlength : earlier.length = before.length)
      (hwithdrawals : withdrawals = []) (horder : start ≤ stop)
      (hduration : duration = some (.ofMillis (stop - start).toNat))
  /-- The task was cancelled when it had been tried already and waited. -/
  | withdrawn (hcached : ¬ cached) (hstarts : starts = earlier ++ [start])
      (hends : ends = before ++ [stop]) (hlength : earlier.length = before.length)
      (hwithdrawals : withdrawals = [now]) (horder : start ≤ stop) (hlater : stop ≤ now)
      (hduration : duration = some (.ofMillis (now - start).toNat))

namespace Clocked

variable {cached : Prop} {task : Task i o} {starts ends withdrawals : List Int}

theorem mono {cached' : Prop} (himp : cached -> cached')
    (h : Clocked cached task starts ends withdrawals) :
    Clocked cached' task starts ends withdrawals := by
  induction h with
  | new id input priority now => exact .new id input priority now
  | answered id input priority now value hcached =>
      exact .answered id input priority now value (himp hcached)
  | started _ hstatus now ih => exact ih.started hstatus now
  | cancelled _ hstatus hnow ih => exact ih.cancelled hstatus hnow
  | succeeded _ hstatus value hnow ih => exact ih.succeeded hstatus value hnow
  | retried _ hstatus error hnow ih => exact ih.retried hstatus error hnow
  | givenUp _ hstatus hnow ih => exact ih.givenUp hstatus hnow
  | failed _ hstatus error hnow ih => exact ih.failed hstatus error hnow

/-- As many attempts have ended as were started, and the stamp is that of the last one. -/
inductive Rested (started : Option Int) : List Int -> List Int -> Prop where
  | fresh (hstarted : started = none) : Rested started [] []
  | tried (hlength : earlier.length = before.length) (horder : start ≤ stop)
      (hstarted : started = some start) : Rested started (earlier ++ [start]) (before ++ [stop])

theorem Rested.length_eq {started : Option Int} (h : Rested started starts ends) :
    starts.length = ends.length := by
  cases h with
  | fresh _ => rfl
  | tried hlength _ _ => rw [List.length_append, List.length_append, hlength]; rfl

/-- One more attempt was started than have ended, and the stamp is its start. -/
structure Busy (started : Option Int) (start : Int) (earlier starts ends : List Int) :
    Prop where
  starts : starts = earlier ++ [start]
  length : earlier.length = ends.length
  started : started = some start

theorem Busy.le {started : Option Int} {start now : Int} {earlier : List Int}
    (h : Busy started start earlier starts ends)
    (hnow : NoneAfter now (starts ++ ends)) : start ≤ now := by
  apply hnow
  rw [h.starts]
  exact List.mem_append_left _ List.mem_concat_self

theorem unfinished (h : Clocked cached task starts ends withdrawals) :
    (task.status = .pending -> withdrawals = [] ∧ Rested task.startedAt starts ends) ∧
      (task.status = .running -> withdrawals = [] ∧
        exists start earlier, Busy task.startedAt start earlier starts ends) := by
  induction h with
  | new id input priority now => exact ⟨fun _ => ⟨rfl, .fresh rfl⟩, nofun⟩
  | answered _ _ _ _ _ _ => exact ⟨nofun, nofun⟩
  | started _ hpending now ih =>
      rcases ih.1 hpending with ⟨hnone, hrested⟩
      exact ⟨nofun, fun _ => ⟨hnone, now, _, rfl, hrested.length_eq, rfl⟩⟩
  | cancelled _ _ _ _ => exact ⟨nofun, nofun⟩
  | succeeded _ _ _ _ _ => exact ⟨nofun, nofun⟩
  | retried _ hrunning error hnow ih =>
      rcases ih.2 hrunning with ⟨hnone, start, earlier, hbusy⟩
      refine ⟨fun _ => ⟨hnone, ?_⟩, nofun⟩
      rw [hbusy.starts]
      exact .tried hbusy.length (hbusy.le hnow) hbusy.started
  | givenUp _ _ _ _ => exact ⟨nofun, nofun⟩
  | failed _ _ _ _ _ => exact ⟨nofun, nofun⟩

theorem duration_eq {start stop : Int} (hstarted : task.startedAt = some start)
    (hcompleted : task.completedAt = some stop) (horder : start ≤ stop) :
    task.duration = some (.ofMillis (stop - start).toNat) := by
  unfold Task.duration
  rw [hstarted, hcompleted]
  exact if_pos horder

theorem reported_of_busy {start stop : Int} {earlier : List Int} {started : Option Int}
    (h : Busy started start earlier starts ends) (hnone : withdrawals = [])
    (hnow : NoneAfter stop (starts ++ ends)) (hcached : cached -> starts = [])
    (hstarted : task.startedAt = started) (hcompleted : task.completedAt = some stop) :
    Reported cached starts (ends ++ [stop]) withdrawals task.duration := by
  have horder := h.le hnow
  have hnot : ¬ cached := by
    intro hanswered
    have hnil := h.starts.symm.trans (hcached hanswered)
    exact absurd hnil (by simp)
  refine Reported.ended hnot h.starts rfl h.length hnone horder ?_
  exact duration_eq (hstarted.trans h.started) hcompleted horder

theorem reported_of_rested {now : Int} {started : Option Int} (h : Rested started starts ends)
    (hnow : NoneAfter now (starts ++ ends)) (hcached : ¬ cached)
    (hstarted : task.startedAt = started) (hcompleted : task.completedAt = some now) :
    Reported cached starts ends [now] task.duration := by
  cases h with
  | fresh hnever =>
      apply Reported.unstarted hcached rfl
      unfold Task.duration
      rw [hstarted, hnever]
  | tried hlength horder hlast =>
      have hlater := hnow _ (List.mem_append_right _ List.mem_concat_self)
      refine Reported.withdrawn hcached rfl rfl hlength rfl horder hlater ?_
      exact duration_eq (hstarted.trans hlast) hcompleted (Int.le_trans horder hlater)

theorem reported (h : Clocked cached task starts ends withdrawals)
    (hended : task.status.isTerminal = true)
    (hcached : cached -> task.status = .completed ∧ starts = []) :
    Reported cached starts ends withdrawals task.duration := by
  have hfresh := fun hanswered => (hcached hanswered).2
  cases h with
  | new _ _ _ _ => cases hended
  | answered id input priority now value hanswered =>
      have hzero : (State.answered (Task.new id input priority now) value now).duration =
          some (.ofMillis (now - now).toNat) := duration_eq rfl rfl (Int.le_refl now)
      rw [Int.sub_self] at hzero
      exact Reported.answered hanswered rfl hzero
  | started _ _ _ => cases hended
  | cancelled h hpending hnow =>
      have hnot : ¬ cached := fun hanswered => Status.noConfusion (hcached hanswered).1
      rcases h.unfinished.1 hpending with ⟨hnone, hrested⟩
      rw [hnone]
      exact reported_of_rested hrested hnow hnot rfl rfl
  | succeeded h hrunning value hnow =>
      rcases h.unfinished.2 hrunning with ⟨hnone, start, earlier, hbusy⟩
      exact reported_of_busy hbusy hnone hnow hfresh rfl rfl
  | retried _ _ _ _ => cases hended
  | givenUp h hrunning hnow =>
      rcases h.unfinished.2 hrunning with ⟨hnone, start, earlier, hbusy⟩
      exact reported_of_busy hbusy hnone hnow hfresh rfl rfl
  | failed h hrunning error hnow =>
      rcases h.unfinished.2 hrunning with ⟨hnone, start, earlier, hbusy⟩
      exact reported_of_busy hbusy hnone hnow hfresh rfl rfl

end Clocked

namespace State

variable {s t : State p i o} {c : Coding i o} {m : Moment p i o} {id : TaskId}

/-!
# Runs
-/

/-- What an action does to a task, by the instants that it adds. -/
theorem Moves.clocked {cached : Prop} {task task' : Task i o}
    {starts ends withdrawals : List Int} (h : Moves s m task task')
    (hold : Clocked cached task starts ends withdrawals)
    (hnow : NoneAfter m.now (starts ++ ends)) :
    Clocked cached task'
      (starts ++ if task.status ≠ .running ∧ task'.status = .running then [m.now] else [])
      (ends ++ if task.status = .running ∧ task'.status ≠ .running then [m.now] else [])
      (withdrawals ++
        if task.status = .pending ∧ task'.status = .cancelled then [m.now] else []) := by
  cases h with
  | stay =>
      have hnone : ¬ (task.status = .pending ∧ task.status = .cancelled) := by
        rintro ⟨hpending, hcancelled⟩
        cases hpending.symm.trans hcancelled
      simp only [hnone, ne_eq, not_and_self, and_not_self, if_false, List.append_nil]
      exact hold
  | start _ hstatus => simpa [hstatus, started] using hold.started hstatus m.now
  | cancel _ hstatus => simpa [hstatus, cancelled] using hold.cancelled hstatus hnow
  | succeed _ hstatus => simpa [hstatus, succeeded] using hold.succeeded hstatus _ hnow
  | retry _ hstatus _ _ => simpa [hstatus, retried] using hold.retried hstatus _ hnow
  | giveUp _ hstatus _ _ => simpa [hstatus, givenUp] using hold.givenUp hstatus hnow
  | fail _ hstatus _ => simpa [hstatus, failed] using hold.failed hstatus _ hnow

theorem Consistent.moves_iff (hs : s.Consistent) (ht : t.Consistent) {task task' : Task i o}
    (htask : s.task? id = some task) (htask' : t.task? id = some task') :
    (Begins id s t ↔ task.status ≠ .running ∧ task'.status = .running) ∧
      (Stops id s t ↔ task.status = .running ∧ task'.status ≠ .running) ∧
      (Withdraws id s t ↔ task.status = .pending ∧ task'.status = .cancelled) := by
  unfold Begins Stops Withdraws
  rw [hs.tries_iff, ht.tries_iff]
  simp only [hasStatus_eq htask, hasStatus_eq htask', decide_eq_true_iff, ne_eq, and_self]

theorem Consistent.not_moves (hs : s.Consistent) (ht : t.Consistent) {task : Task i o}
    (hnone : s.task? id = none) (htask : t.task? id = some task)
    (hstatus : task.status ≠ .running) :
    ¬ Begins id s t ∧ ¬ Stops id s t ∧ ¬ Withdraws id s t := by
  have hno : forall status, s.hasStatus id status = false := by
    intro status
    unfold hasStatus
    rw [hnone]
    rfl
  unfold Begins Stops Withdraws
  rw [hs.tries_iff, ht.tries_iff, hno, hno, hasStatus_eq htask, decide_eq_true_iff]
  simp [hstatus]

end State

namespace Course

variable {x : Course p i o} {c : Coding i o} {m : Moment p i o} {id : TaskId}
  {starts ends withdrawals : List Int}

open State (Begins Stops Withdraws)

/-- As long as its record is there, the stamps of a task are owed to these instants. -/
def Clocks (x : Course p i o) (id : TaskId) (starts ends withdrawals : List Int) : Prop :=
  forall task, x.state.task? id = some task ->
    Clocked (x.Answered id) task starts ends withdrawals

theorem Clocks.act (h : x.Clocks id starts ends withdrawals) (hx : x.state.Consistent)
    (hnew : ¬ x.state.Issued id -> starts = [] ∧ ends = [] ∧ withdrawals = [])
    (hnow : NoneAfter m.now (starts ++ ends)) :
    (x.act c m).Clocks id
      (starts ++ if Begins id x.state (x.state.act c m) then [m.now] else [])
      (ends ++ if Stops id x.state (x.state.act c m) then [m.now] else [])
      (withdrawals ++ if Withdraws id x.state (x.state.act c m) then [m.now] else []) := by
  intro task htask
  have hact := hx.act (c := c) m
  have hempty : id = x.state.ids.next.1 -> starts = [] ∧ ends = [] ∧ withdrawals = [] :=
    fun hid => hnew fun hissued => hx.ne_next hissued hid
  have harises := arises_act hx m htask
  rw [state_act] at htask
  cases harises with
  | entered input priority haction hid hnone =>
      rcases hempty hid with ⟨rfl, rfl, rfl⟩
      rcases hx.not_moves hact hnone htask nofun with ⟨hbegins, hstops, hwithdraws⟩
      rw [if_neg hbegins, if_neg hstops, if_neg hwithdraws]
      exact .new id input priority m.now
  | answered input priority value haction hid hnone htold =>
      rcases hempty hid with ⟨rfl, rfl, rfl⟩
      rcases hx.not_moves hact hnone htask nofun with ⟨hbegins, hstops, hwithdraws⟩
      rw [if_neg hbegins, if_neg hstops, if_neg hwithdraws]
      exact .answered id input priority m.now value htold
  | moved hwas hmoves =>
      have hold := (h _ hwas).mono fun hanswered => hanswered.act (c := c) hx m
      rcases hx.moves_iff hact hwas htask with ⟨hbegins, hstops, hwithdraws⟩
      rw [if_congr hbegins rfl rfl, if_congr hstops rfl rfl, if_congr hwithdraws rfl rfl]
      exact hmoves.clocked hold hnow

/-- Whatever happens while the clock does not go back, the stamps of a task are owed to the
attempts at it and to its withdrawal. -/
theorem Clocks.run (hx : x.state.Consistent) (hempty : x.state.records = [])
    {ms : List (Moment p i o)} (hclock : ms.Pairwise fun m m' => m.now ≤ m'.now) :
    (x.run c ms).Clocks id (x.state.instants c (Begins id) ms)
      (x.state.instants c (Stops id) ms) (x.state.instants c (Withdraws id) ms) := by
  induction ms using List.reverseRecOn with
  | nil =>
      intro task htask
      have hnone : x.state.task? id = none := by
        unfold State.task? State.record?
        rw [hempty]
        rfl
      exact nomatch hnone.symm.trans htask
  | append_singleton ms m ih =>
      rcases List.pairwise_append.mp hclock with ⟨hbefore, _, hlast⟩
      have hstate := state_run c x ms
      rw [run_concat, State.instants_concat, State.instants_concat, State.instants_concat,
        ← hstate]
      apply (ih hbefore).act
      · exact hstate ▸ hx.run ms
      · rw [hstate]
        intro hissued
        refine ⟨hx.instants_eq_nil ?_ hissued, hx.instants_eq_nil ?_ hissued,
          hx.instants_eq_nil ?_ hissued⟩
        · exact fun _ _ hs => hs.issued_of_begins
        · exact fun _ _ hs => hs.issued_of_stops
        · exact fun _ _ hs => hs.issued_of_withdraws
      · intro instant hinstant
        have hearlier : exists m', m' ∈ ms ∧ m'.now = instant := by
          cases List.mem_append.mp hinstant with
          | inl hstart => exact State.mem_instants hstart
          | inr hend => exact State.mem_instants hend
        rcases hearlier with ⟨m', hm', rfl⟩
        exact hlast m' hm' m List.mem_cons_self

/-!
# Answers from the cache
-/

theorem Sound.of_answered (h : x.Sound) (hanswered : x.Answered id) :
    (Event.about id x.log).countP Event.isStarted = 0 ∧
      forall task, x.state.task? id = some task -> task.status = .completed := by
  have hmem : .completed id .zero true ∈ Event.about id x.log :=
    List.mem_filter.mpr ⟨hanswered, decide_eq_true rfl⟩
  constructor
  · cases h.2.told id with
    | inl hnil =>
        have hnone : Event.about id x.log = [] := hnil
        rw [hnone] at hmem
        cases hmem
    | inr htold =>
        rcases htold with ⟨status, n, htold⟩
        exact (Told.of_answered htold hmem).2
  · intro task htask
    exact (Told.of_answered (h.exists_told htask) hmem).1

theorem Sound.isStarted_of_starts (hx : x.Sound) {ms : List (Moment p i o)}
    (hne : x.state.instants c (Begins id) ms ≠ []) :
    0 < (Event.about id (x.run c ms).log).countP Event.isStarted := by
  induction ms using List.reverseRecOn with
  | nil => exact absurd rfl hne
  | append_singleton ms m ih =>
      have hbefore : (x.run c ms).Sound := hx.run ms
      rcases exists_signals_act (c := c) hbefore.1 m with ⟨told, hlog, _⟩
      rw [State.instants_concat, ← state_run] at hne
      rw [run_concat, hlog, Event.about_append, List.countP_append]
      by_cases hold : x.state.instants c (Begins id) ms = []
      · rw [hold, List.nil_append] at hne
        have hbegins : Begins id (x.run c ms).state ((x.run c ms).state.act c m) := by
          by_contra hnot
          exact hne (if_neg hnot)
        have hafter := hbefore.act (c := c) m
        have hconsistent := hbefore.1.act (c := c) m
        have hrunning := of_decide_eq_true (hconsistent.tries_iff.mp hbegins.2)
        rcases Option.map_eq_some_iff.mp hrunning with ⟨task, htask, hstatus⟩
        rw [← state_act] at htask
        have hstarts := (hafter.exists_told htask).starts
        rw [hstatus, hlog, Event.about_append] at hstarts
        have hcount := List.countP_append.symm.trans hstarts
        omega
      · exact Nat.lt_of_lt_of_le (ih hold) (Nat.le_add_right _ _)

/-!
# Reported durations
-/

/-- Whatever happens to a new scheduler while the clock does not go back: a task that came to
its end reports no time if no attempt at it was started, none at all if it was answered from
the cache, and otherwise the time from the start of its last attempt to the end of it, or to
the moment when it was cancelled while it waited for another one.  A batch that looks at it
then reports the same. -/
theorem durations_run (c : Coding i o) (options : Options) (cacheOptions : Cache.Options)
    {ids : IdSource} (hids : Function.Injective ids.nth) {ms : List (Moment p i o)}
    (hclock : ms.Pairwise fun m m' => m.now ≤ m'.now) {id : TaskId} {task : Task i o} :
    let s₀ : State p i o := (State.new options cacheOptions ids).state
    let x := (start s₀).run c ms
    x.state.task? id = some task -> task.status.isTerminal = true ->
      Reported (x.Answered id) (s₀.instants c (Begins id) ms) (s₀.instants c (Stops id) ms)
          (s₀.instants c (Withdraws id) ms) task.duration ∧
        forall e : BatchEntry o, e.id = id -> e.result = none ->
          (e.look x.state).result.map BatchResult.duration = some task.duration := by
  intro s₀ x htask hended
  have hstart : (start s₀).Sound := sound_start options cacheOptions hids
  have hsound : x.Sound := hstart.run ms
  have hclocked : Clocked (x.Answered id) task (s₀.instants c (Begins id) ms)
      (s₀.instants c (Stops id) ms) (s₀.instants c (Withdraws id) ms) :=
    Clocks.run (x := start s₀) hstart.1 rfl hclock task htask
  constructor
  · apply hclocked.reported hended
    intro hanswered
    rcases hsound.of_answered hanswered with ⟨hnone, hcompleted⟩
    refine ⟨hcompleted task htask, ?_⟩
    by_contra hne
    exact absurd hnone (Nat.ne_of_gt (hstart.isStarted_of_starts hne))
  · rintro e rfl hresult
    unfold BatchEntry.look
    rw [hresult, htask]
    simp only
    rw [if_pos hended]
    rfl

/-- A task that waits for its second attempt for 50 ms, and takes 40 ms with it. -/
theorem durations_retried :
    let c : Coding String String := { input := fun _ => none, output := .text }
    let ms : List (Moment Unit String String) :=
      [⟨0, .setProcessor ()⟩, ⟨0, .submit "a" 0⟩, ⟨0, .dispatch⟩,
        ⟨10, .finish 0 (.error (.execution "no")) .zero⟩, ⟨60, .dispatch⟩,
        ⟨100, .finish 0 (.ok "done") .zero⟩]
    let s₀ := (State.new (.forWorkers 1) .default (.sequential "task")).state
    let x := (start s₀).run c ms
    let id : TaskId := ⟨"task-1"⟩
    exists task, x.state.task? id = some task ∧ task.duration = some (.ofMillis 40) ∧
      s₀.instants c (Begins id) ms = [0, 60] ∧ s₀.instants c (Stops id) ms = [10, 100] ∧
      Reported (x.Answered id) (s₀.instants c (Begins id) ms) (s₀.instants c (Stops id) ms)
        (s₀.instants c (Withdraws id) ms) task.duration := by
  intro c ms s₀ x id
  have hended : (x.state.task? id).map (fun t => (t.status, t.duration)) =
      some (.completed, some (.ofMillis 40)) := by decide +kernel
  rcases Option.map_eq_some_iff.mp hended with ⟨task, htask, hfields⟩
  rcases Prod.mk.inj hfields with ⟨hstatus, hduration⟩
  have hclock : ms.Pairwise fun m m' => m.now ≤ m'.now := by simp [ms]
  have hids := State.injective_sequential "task"
  have hreported := durations_run c (.forWorkers 1) .default hids hclock htask (hstatus ▸ rfl)
  exact ⟨task, htask, hduration, by decide +kernel, by decide +kernel, hreported.1⟩

/-- A task that is cancelled 90 ms after its only attempt, which took 10 ms, reports both
together, and so does a batch. -/
theorem duration_withdrawn :
    let c : Coding String String := { input := fun _ => none, output := .text }
    let ms : List (Moment Unit String String) :=
      [⟨0, .setProcessor ()⟩, ⟨0, .submit "a" 0⟩, ⟨0, .dispatch⟩, ⟨0, .pause⟩,
        ⟨10, .finish 0 (.error (.execution "no")) .zero⟩, ⟨100, .cancel ⟨"task-1"⟩⟩]
    let s₀ := (State.new (.forWorkers 1) .default (.sequential "task")).state
    let id : TaskId := ⟨"task-1"⟩
    let s := s₀.run c ms
    s₀.instants c (Begins id) ms = [0] ∧ s₀.instants c (Stops id) ms = [10] ∧
      (s.task? id).map Task.duration = some (some (.ofMillis 100)) ∧
      (BatchEntry.look s ⟨id, none⟩).result.map BatchResult.duration =
        some (some (.ofMillis 100)) ∧
      ¬ forall (ms : List (Moment Unit String String)) (task : Task String String)
        (start stop : Int), (ms.Pairwise fun m m' => m.now ≤ m'.now) ->
          (s₀.run c ms).task? id = some task -> task.status.isTerminal = true ->
          (s₀.instants c (Begins id) ms).getLast? = some start ->
          (s₀.instants c (Stops id) ms).getLast? = some stop ->
          task.duration = some (.ofMillis (stop - start).toNat) := by
  intro c ms s₀ id s
  have hstarts : s₀.instants c (Begins id) ms = [0] := by decide +kernel
  have hends : s₀.instants c (Stops id) ms = [10] := by decide +kernel
  have hduration : (s.task? id).map Task.duration = some (some (.ofMillis 100)) := by
    decide +kernel
  refine ⟨hstarts, hends, hduration, by decide +kernel, ?_⟩
  intro hexact
  rcases Option.map_eq_some_iff.mp hduration with ⟨task, htask, hlong⟩
  have hclock : ms.Pairwise fun m m' => m.now ≤ m'.now := by simp [ms]
  have hstatus : (s.task? id).map Task.status = some .cancelled := by decide +kernel
  rw [htask, Option.map_some, Option.some.injEq] at hstatus
  have hshort := hexact ms task 0 10 hclock htask (hstatus ▸ rfl) (hstarts ▸ rfl)
    (hends ▸ rfl)
  rw [hlong] at hshort
  exact absurd hshort (by decide)

end Course
end Scheduler
end CodeSurvey
