import CodeSurvey.Proofs.Scheduler.Capacity
import CodeSurvey.Proofs.Scheduler.Collecting

/-!
# What a task owes to its attempts

The outcomes of the attempts at a task are read off a run, one for each attempt that ended.
However the actions at other tasks come in between, the task is what its own starts and
outcomes have made of it.
-/

namespace CodeSurvey
namespace Scheduler

/-!
# Outcomes
-/

/-- The outcome of the attempt at a task, when this is the end of it. -/
def Moment.outcome? (m : Moment p i o) (s : State p i o) (id : TaskId) :
    Option (Except Failure o) :=
  match m.action with
  | .finish place found _ =>
      ((s.inFlight[place]?).filter fun a => a.id = id).map fun a => a.outcome found
  | _ => none

namespace State

variable {s t : State p i o} {c : Coding i o} {m : Moment p i o} {id : TaskId}

/-- The outcomes of the attempts at a task, in the order in which they ended. -/
def outcomes (c : Coding i o) (id : TaskId) :
    State p i o -> List (Moment p i o) -> List (Except Failure o)
  | _, [] => []
  | s, m :: ms => (m.outcome? s id).toList ++ outcomes c id (s.act c m) ms

theorem outcome?_eq_some {outcome : Except Failure o} :
    m.outcome? s id = some outcome ↔ m.EndsWith s id outcome := by
  rcases m with ⟨now, action⟩
  unfold Moment.outcome? Moment.EndsWith
  constructor
  · intro h
    split at h
    next place found elapsed haction =>
      rcases Option.map_eq_some_iff.mp h with ⟨a, ha, houtcome⟩
      rcases Option.filter_eq_some_iff.mp ha with ⟨hplace, hid⟩
      exact ⟨place, found, elapsed, a, haction, hplace, of_decide_eq_true hid, houtcome⟩
    next => cases h
  · rintro ⟨place, found, elapsed, a, rfl, hplace, rfl, rfl⟩
    simp only [hplace, Option.filter_some, decide_true, if_true, Option.map_some]

theorem outcomes_concat (c : Coding i o) (id : TaskId) (s : State p i o)
    (ms : List (Moment p i o)) (m : Moment p i o) :
    s.outcomes c id (ms ++ [m]) =
      s.outcomes c id ms ++ (m.outcome? (s.run c ms) id).toList := by
  induction ms generalizing s with
  | nil => exact List.append_nil _
  | cons first ms ih =>
      show _ ++ outcomes c id (s.act c first) (ms ++ [m]) = _
      rw [ih, ← List.append_assoc]
      rfl

theorem outcome?_eq_none_of_ne {m : Moment p i o}
    (hm : forall place found elapsed, m.action ≠ .finish place found elapsed) :
    m.outcome? s id = none := by
  unfold Moment.outcome?
  split
  next place found elapsed heq => exact absurd heq (hm place found elapsed)
  next => rfl

theorem Consistent.exists_running_of_endsWith (h : s.Consistent) {outcome : Except Failure o}
    (hends : m.EndsWith s id outcome) :
    exists task, s.task? id = some task ∧ task.status = .running := by
  rcases hends with ⟨_, _, _, a, _, hplace, rfl, _⟩
  rcases h.exists_running (List.mem_of_getElem? hplace) with ⟨r, hrecord, _, _, hstatus⟩
  exact ⟨r.task, congrArg (Option.map Record.task) hrecord, hstatus⟩

theorem Consistent.not_running_of_endsWith (h : s.Consistent) (c : Coding i o)
    {outcome : Except Failure o} (hends : m.EndsWith s id outcome) {task : Task i o}
    (htask : (s.act c m).task? id = some task) : task.status ≠ .running := by
  have hact := h.act (c := c) m
  rcases m with ⟨now, action⟩
  rcases hends with ⟨place, found, elapsed, a, rfl, hplace, rfl, rfl⟩
  intro hstatus
  rcases Option.map_eq_some_iff.mp htask with ⟨r, hrecord, rfl⟩
  have hflying := (hact.mem_inFlight_iff a.id).mpr ⟨r, hrecord, hstatus⟩
  have hflights : (s.finish now a.id (a.outcome found) elapsed).state.inFlight =
      (s.release a.id).inFlight :=
    congrArg Prod.fst (slots_finish s now a.id (a.outcome found) elapsed)
  rw [act_finish c hplace, hflights] at hflying
  rcases List.mem_map.mp hflying with ⟨b, hb, hid⟩
  exact of_decide_eq_true (List.mem_filter.mp hb).2 hid

end State

/-!
# What attempts come to
-/

/-- How a task became what it is, and the outcomes of its attempts so far.  Whenever it was
decided whether there would be another attempt, `limit` held of the number of retries. -/
inductive Undergone (limit : Nat -> Prop) (cached : Prop) :
    Task i o -> List (Except Failure o) -> Prop where
  | new (id : TaskId) (input : i) (priority now : Int) :
      Undergone limit cached (Task.new id input priority now) []
  | answered (id : TaskId) (input : i) (priority now : Int) (value : o) (hcached : cached) :
      Undergone limit cached (State.answered (Task.new id input priority now) value now) []
  | started {t : Task i o} (h : Undergone limit cached t past) (hstatus : t.status = .pending)
      (now : Int) : Undergone limit cached (State.started t now) past
  | cancelled {t : Task i o} (h : Undergone limit cached t past)
      (hstatus : t.status = .pending) (now : Int) :
      Undergone limit cached (State.cancelled t now) past
  | succeeded {t : Task i o} (h : Undergone limit cached t past)
      (hstatus : t.status = .running) (value : o) (now : Int) :
      Undergone limit cached (State.succeeded t value now) (past ++ [.ok value])
  | retried {t : Task i o} (h : Undergone limit cached t past)
      (hstatus : t.status = .running) (error : Failure) (hlimit : limit n)
      (hretries : t.retries < n) :
      Undergone limit cached (State.retried t error) (past ++ [.error error])
  | givenUp {t : Task i o} (h : Undergone limit cached t past)
      (hstatus : t.status = .running) (error : Failure) (now : Int) :
      Undergone limit cached (State.givenUp t now) (past ++ [.error error])
  | failed {t : Task i o} (h : Undergone limit cached t past)
      (hstatus : t.status = .running) (error : Failure) (now : Int) (hlimit : limit n)
      (hretries : n ≤ t.retries) :
      Undergone limit cached (State.failed t error now) (past ++ [.error error])

namespace Undergone

variable {limit : Nat -> Prop} {cached : Prop} {task : Task i o}
  {past : List (Except Failure o)}

theorem mono {cached' : Prop} (himp : cached -> cached') (h : Undergone limit cached task past) :
    Undergone limit cached' task past := by
  induction h with
  | new id input priority now => exact .new id input priority now
  | answered id input priority now value hcached =>
      exact .answered id input priority now value (himp hcached)
  | started _ hstatus now ih => exact ih.started hstatus now
  | cancelled _ hstatus now ih => exact ih.cancelled hstatus now
  | succeeded _ hstatus value now ih => exact ih.succeeded hstatus value now
  | retried _ hstatus error hlimit hretries ih => exact ih.retried hstatus error hlimit hretries
  | givenUp _ hstatus error now ih => exact ih.givenUp hstatus error now
  | failed _ hstatus error now hlimit hretries ih =>
      exact ih.failed hstatus error now hlimit hretries

theorem retries_le (h : Undergone limit cached task past) {bound : Nat}
    (hbound : forall n, limit n -> n ≤ bound) : task.retries ≤ bound := by
  induction h with
  | new _ _ _ _ => exact Nat.zero_le bound
  | answered _ _ _ _ _ _ => exact Nat.zero_le bound
  | started _ _ _ ih => exact ih
  | cancelled _ _ _ ih => exact ih
  | succeeded _ _ _ _ ih => exact ih
  | retried _ _ _ hlimit hretries _ => exact Nat.le_trans hretries (hbound _ hlimit)
  | givenUp _ _ _ _ ih => exact ih
  | failed _ _ _ _ _ _ ih => exact ih

/-- The task has failed in all its attempts so far, and its error is that of the last one. -/
structure Enduring (task : Task i o) (past : List (Except Failure o))
    (failures : List Failure) : Prop where
  past : past = failures.map .error
  retries : task.retries = failures.length
  error : task.error = failures.getLast?
  result : task.result = none
  completedAt : task.completedAt = none
  startedAt : task.status = .running ∨ failures ≠ [] -> task.startedAt.isSome
  fresh : task.status = .pending -> failures = [] -> task.startedAt = none

theorem exists_enduring (h : Undergone limit cached task past)
    (hstatus : task.status.isTerminal = false) : exists failures, Enduring task past failures := by
  induction h with
  | new id input priority now =>
      refine ⟨[], rfl, rfl, rfl, rfl, rfl, ?_, fun _ _ => rfl⟩
      rintro (hstatus | hfailures)
      · exact Status.noConfusion hstatus
      · exact absurd rfl hfailures
  | answered _ _ _ _ _ _ => cases hstatus
  | started _ hpending now ih =>
      rcases ih (hpending ▸ rfl) with ⟨failures, hfailures⟩
      refine ⟨failures, hfailures.past, hfailures.retries, hfailures.error, hfailures.result,
        hfailures.completedAt, fun _ => rfl, ?_⟩
      exact fun hstatus => Status.noConfusion hstatus
  | cancelled _ _ _ _ => cases hstatus
  | succeeded _ _ _ _ _ => cases hstatus
  | retried _ hrunning error _ _ ih =>
      rcases ih (hrunning ▸ rfl) with ⟨failures, hfailures⟩
      refine ⟨failures ++ [error], ?_, ?_, ?_, hfailures.result, hfailures.completedAt, ?_, ?_⟩
      · rw [hfailures.past, List.map_append]
        rfl
      · rw [List.length_append, ← hfailures.retries]
        rfl
      · rw [List.getLast?_concat]
        rfl
      · exact fun _ => hfailures.startedAt (Or.inl hrunning)
      · exact fun _ hnil => absurd hnil (by simp)
  | givenUp _ _ _ _ _ => cases hstatus
  | failed _ _ _ _ _ _ _ => cases hstatus

end Undergone

namespace State

variable {s t : State p i o} {c : Coding i o} {m : Moment p i o} {id : TaskId}

/-!
# Runs
-/

theorem Consistent.issued_of_outcome? (h : s.Consistent) {outcome : Except Failure o}
    (houtcome : m.outcome? s id = some outcome) : s.Issued id := by
  rcases h.exists_running_of_endsWith (outcome?_eq_some.mp houtcome) with ⟨task, htask, _⟩
  exact h.issued htask

theorem Consistent.outcomes_eq_nil (h : s.Consistent) {ms : List (Moment p i o)}
    (hid : ¬ (s.run c ms).Issued id) : s.outcomes c id ms = [] := by
  induction ms using List.reverseRecOn with
  | nil => rfl
  | append_singleton ms m ih =>
      rw [run_concat] at hid
      have hbefore : ¬ (s.run c ms).Issued id := fun hissued => hid (hissued.act c m)
      rw [outcomes_concat, ih hbefore]
      cases houtcome : m.outcome? (s.run c ms) id with
      | none => rfl
      | some outcome => exact absurd ((h.run ms).issued_of_outcome? houtcome) hbefore

theorem hit_submit (c : Coding i o) {now : Int} {input : i} {value : o}
    (hfound : (s.lookUp now (s.cacheKey c input)).result = some value) (priority : Int) :
    (s.submit c now input priority).state = s ∨
      .completed s.ids.next.1 .zero true ∈ (s.submit c now input priority).state.events := by
  rcases exists_lookUp_eq s now (s.cacheKey c input) with ⟨cache, hstate⟩
  unfold submit
  split
  · exact Or.inl rfl
  · right
    simp only
    rw [hfound, hstate]
    exact List.mem_append_right _ (List.mem_singleton_self _)

theorem Moves.undergone {limit : Nat -> Prop} {cached : Prop} {task task' : Task i o}
    {past : List (Except Failure o)} (h : Moves s m task task')
    (hold : Undergone limit cached task past)
    (hlimit : task.status = .running -> limit s.options.maxRetries)
    (hstill : task' = task -> m.outcome? s task.id = none) :
    Undergone limit cached task' (past ++ (m.outcome? s task.id).toList) := by
  have hnone : (forall place found elapsed, m.action ≠ .finish place found elapsed) ->
      past ++ (m.outcome? s task.id).toList = past := by
    intro hm
    rw [outcome?_eq_none_of_ne hm]
    exact List.append_nil past
  cases h with
  | stay =>
      rw [hstill rfl]
      exact (List.append_nil past).symm ▸ hold
  | start haction hstatus =>
      rw [hnone (by rw [haction]; rintro _ _ _ ⟨⟩)]
      exact hold.started hstatus m.now
  | cancel haction hstatus =>
      have hfinish : forall place found elapsed, m.action ≠ .finish place found elapsed := by
        cases haction with
        | inl haction => rw [haction]; rintro _ _ _ ⟨⟩
        | inr haction => rw [haction]; rintro _ _ _ ⟨⟩
      rw [hnone hfinish]
      exact hold.cancelled hstatus m.now
  | succeed hends hstatus =>
      rw [outcome?_eq_some.mpr hends]
      exact hold.succeeded hstatus _ m.now
  | retry hends hstatus hretries _ =>
      rw [outcome?_eq_some.mpr hends]
      exact hold.retried hstatus _ (hlimit hstatus) hretries
  | giveUp hends hstatus _ _ =>
      rw [outcome?_eq_some.mpr hends]
      exact hold.givenUp hstatus _ m.now
  | fail hends hstatus hretries =>
      rw [outcome?_eq_some.mpr hends]
      exact hold.failed hstatus _ m.now (hlimit hstatus) hretries

end State

namespace Course

variable {x : Course p i o} {c : Coding i o} {m : Moment p i o} {id : TaskId}
  {limit : Nat -> Prop} {past : List (Except Failure o)}

/-- It was told that the task was answered from the cache. -/
def Answered (x : Course p i o) (id : TaskId) : Prop :=
  .completed id .zero true ∈ x.log

theorem Answered.act (h : x.Answered id) (hx : x.state.Consistent) (m : Moment p i o) :
    (x.act c m).Answered id := by
  rcases exists_signals_act (c := c) hx m with ⟨told, hlog, _⟩
  unfold Answered
  rw [hlog]
  exact List.mem_append_left told h

/-- How an action made a task what it is. -/
inductive Arises (c : Coding i o) (x : Course p i o) (m : Moment p i o) (id : TaskId) :
    Task i o -> Prop where
  | entered (input : i) (priority : Int) (haction : m.action = .submit input priority)
      (hid : id = x.state.ids.next.1) (hnone : x.state.task? id = none) :
      Arises c x m id (Task.new id input priority m.now)
  | answered (input : i) (priority : Int) (value : o)
      (haction : m.action = .submit input priority) (hid : id = x.state.ids.next.1)
      (hnone : x.state.task? id = none) (htold : (x.act c m).Answered id) :
      Arises c x m id (State.answered (Task.new id input priority m.now) value m.now)
  | moved (hwas : x.state.task? id = some was) (hmoves : State.Moves x.state m was task) :
      Arises c x m id task

theorem arises_act (hx : x.state.Consistent) (m : Moment p i o) {task : Task i o}
    (htask : (x.act c m).state.task? id = some task) : Arises c x m id task := by
  rw [state_act] at htask
  rcases Option.map_eq_some_iff.mp htask with ⟨r, hrecord, rfl⟩
  have hpasses := hx.passes_act c m id
  rw [hrecord] at hpasses
  cases hwas : x.state.record? id with
  | some q =>
      rw [hwas] at hpasses
      cases hpasses with
      | move hmoves => exact .moved (congrArg (Option.map Record.task) hwas) hmoves
  | none =>
      have hnone : x.state.task? id = none := congrArg (Option.map Record.task) hwas
      rw [hwas] at hpasses
      cases hpasses with
      | enter input priority haction hid => exact .entered input priority haction hid hnone
      | answer input priority value haction hid hfound =>
          refine .answered input priority value haction hid hnone ?_
          rcases m with ⟨now, action⟩
          cases haction
          have hact : x.state.act c ⟨now, .submit input priority⟩ =
              (x.state.submit c now input priority).state := rfl
          cases State.hit_submit c hfound priority with
          | inl hsame =>
              rw [hact, hsame, hwas] at hrecord
              cases hrecord
          | inr htold => exact hid ▸ List.mem_append_right _ htold

/-- As long as its record is there, a task has undergone these attempts. -/
def Undergoes (x : Course p i o) (limit : Nat -> Prop) (id : TaskId)
    (past : List (Except Failure o)) : Prop :=
  forall task, x.state.task? id = some task -> Undergone limit (x.Answered id) task past

theorem Undergoes.act (h : x.Undergoes limit id past) (hx : x.state.Consistent)
    (hlimit : x.state.Underway id -> limit x.state.options.maxRetries)
    (hpast : ¬ x.state.Issued id -> past = []) (m : Moment p i o) :
    (x.act c m).Undergoes limit id (past ++ (m.outcome? x.state id).toList) := by
  intro task htask
  have hnew : forall {input priority}, m.action = .submit input priority ->
      id = x.state.ids.next.1 -> past ++ (m.outcome? x.state id).toList = [] := by
    intro input priority haction hid
    rw [hpast fun hissued => hx.ne_next hissued hid,
      State.outcome?_eq_none_of_ne (by rw [haction]; rintro _ _ _ ⟨⟩)]
    rfl
  cases arises_act hx m htask with
  | entered input priority haction hid _ =>
      rw [hnew haction hid]
      exact .new id input priority m.now
  | answered input priority value haction hid _ htold =>
      rw [hnew haction hid]
      exact .answered id input priority m.now value htold
  | @moved was _ hwas hmoves =>
      have hid : was.id = id := by
        rcases Option.map_eq_some_iff.mp hwas with ⟨q, hq, rfl⟩
        exact State.id_of_record? hq
      subst hid
      have hold := (h was hwas).mono fun hanswered => hanswered.act (c := c) hx m
      rw [state_act] at htask
      apply hmoves.undergone hold
      · exact fun hrunning => hlimit ⟨was, hwas, Or.inr hrunning⟩
      · intro hsame
        cases houtcome : m.outcome? x.state was.id with
        | none => rfl
        | some outcome =>
            -- It ran before, so it would still run.
            have hends := State.outcome?_eq_some.mp houtcome
            rcases hx.exists_running_of_endsWith hends with ⟨task', htask', hrunning⟩
            rw [hwas] at htask'
            cases htask'
            exact absurd (hsame ▸ hrunning) (hx.not_running_of_endsWith c hends htask)

theorem run_concat (c : Coding i o) (x : Course p i o) (ms : List (Moment p i o))
    (m : Moment p i o) : x.run c (ms ++ [m]) = (x.run c ms).act c m :=
  List.foldl_append

/-- Whatever happens, a task has undergone the attempts at it and nothing else. -/
theorem Undergoes.run (hx : x.state.Consistent) (hempty : x.state.records = [])
    {ms : List (Moment p i o)}
    (hlimit : forall earlier, earlier <+: ms -> (x.state.run c earlier).Underway id ->
      limit (x.state.run c earlier).options.maxRetries) :
    (x.run c ms).Undergoes limit id (x.state.outcomes c id ms) := by
  induction ms using List.reverseRecOn with
  | nil =>
      intro task htask
      have hnone : x.state.task? id = none := by
        unfold State.task? State.record?
        rw [hempty]
        rfl
      exact nomatch hnone.symm.trans htask
  | append_singleton ms m ih =>
      have hprefix := List.prefix_append ms [m]
      have hbefore := ih fun earlier hearlier => hlimit earlier (hearlier.trans hprefix)
      have hstate := state_run c x ms
      rw [run_concat, State.outcomes_concat, ← hstate]
      apply hbefore.act
      · exact hstate ▸ hx.run ms
      · exact hstate ▸ hlimit ms hprefix
      · exact fun hissued => hx.outcomes_eq_nil (hstate ▸ hissued)

end Course

end Scheduler
end CodeSurvey
