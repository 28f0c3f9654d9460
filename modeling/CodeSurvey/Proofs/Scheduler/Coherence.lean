import CodeSurvey.Proofs.Scheduler.Outcomes

/-!
# Coherent tasks

The fields of a task agree with its status at every time, and with what its attempts came
to.  What a task was submitted with stays, and a task that has come to its end stays as it
is until its record is cleared.
-/

namespace CodeSurvey
namespace Scheduler

/-- The processor failed, or the attempt took too long. -/
def Failure.ofAttempt : Failure -> Bool
  | .execution _ | .timedOut _ => true
  | .cancelled | .cleared => false

theorem ofAttempt_of_outcome {a : Attempt p i} {found : Except Setback o} {e : Failure}
    (h : a.outcome found = .error e) : e.ofAttempt = true := by
  cases found with
  | ok value => cases h
  | error setback =>
      cases h
      cases setback with
      | execution text => rfl
      | timedOut => rfl

/-- The fields of a task with these outcomes of its attempts agree with each other. -/
structure Coherent (task : Task i o) (outcomes : List (Except Failure o)) : Prop where
  result : task.result.isSome ↔ task.status = .completed
  completed : task.status = .completed -> task.error = none
  failed : task.status = .failed -> exists e, task.error = some e ∧ e.ofAttempt = true
  cancelled : task.status = .cancelled ↔ task.error = some .cancelled
  completedAt : task.completedAt.isSome ↔ task.status.isTerminal = true
  running : task.status = .running -> task.startedAt.isSome
  fresh : task.status = .pending -> task.retries = 0 ->
    task.startedAt = none ∧ task.error = none
  retried : task.status = .pending ∨ task.status = .running ->
    (task.error.isSome ↔ 0 < task.retries)
  /-- The error is that of the latest attempt. -/
  latest : task.status = .pending ∨ task.status = .running ->
    forall e, task.error = some e -> outcomes.getLast? = some (.error e)

namespace Undergone

variable {limit : Nat -> Prop} {cached : Prop} {task : Task i o}
  {past : List (Except Failure o)} {failures : List Failure}

theorem Enduring.coherent (h : Enduring task past failures)
    (hstatus : task.status.isTerminal = false)
    (hproper : forall e, .error e ∈ past -> e.ofAttempt = true) : Coherent task past where
  result := by
    rw [h.result]
    constructor
    · exact fun hsome => nomatch hsome
    · intro hcompleted
      rw [hcompleted] at hstatus
      cases hstatus
  completed := by
    intro hcompleted
    rw [hcompleted] at hstatus
    cases hstatus
  failed := by
    intro hfailed
    rw [hfailed] at hstatus
    cases hstatus
  cancelled := by
    constructor
    · intro hcancelled
      rw [hcancelled] at hstatus
      cases hstatus
    · intro herror
      have hmem := List.mem_of_getLast? (h.error.symm.trans herror)
      have hpast : .error .cancelled ∈ past := h.past ▸ List.mem_map_of_mem hmem
      exact absurd (hproper .cancelled hpast) Bool.false_ne_true
  completedAt := by
    rw [h.completedAt, hstatus]
    rfl
  running := fun hrunning => h.startedAt (Or.inl hrunning)
  fresh := by
    intro hpending hretries
    have hnil : failures = [] := List.length_eq_zero_iff.mp (h.retries.symm.trans hretries)
    exact ⟨h.fresh hpending hnil, h.error.trans (hnil ▸ rfl)⟩
  retried := by
    intro _
    rw [h.error, h.retries, List.getLast?_isSome, List.length_pos_iff]
  latest := by
    intro _ e he
    rw [h.past, List.getLast?_map, ← h.error, he]
    rfl

theorem coherent_of_ended (hresult : task.result.isSome ↔ task.status = .completed)
    (hcompleted : task.status = .completed -> task.error = none)
    (hfailed : task.status = .failed -> exists e, task.error = some e ∧ e.ofAttempt = true)
    (hcancelled : task.status = .cancelled ↔ task.error = some .cancelled)
    (hend : task.completedAt.isSome) (hstatus : task.status.isTerminal = true) :
    Coherent task past where
  result := hresult
  completed := hcompleted
  failed := hfailed
  cancelled := hcancelled
  completedAt := iff_of_true hend hstatus
  running := fun h => absurd h (Status.ne_running_of_isTerminal hstatus)
  fresh := fun h _ => absurd h (Status.ne_pending_of_isTerminal hstatus)
  retried := by
    rintro (h | h)
    · exact absurd h (Status.ne_pending_of_isTerminal hstatus)
    · exact absurd h (Status.ne_running_of_isTerminal hstatus)
  latest := by
    rintro (h | h)
    · exact absurd h (Status.ne_pending_of_isTerminal hstatus)
    · exact absurd h (Status.ne_running_of_isTerminal hstatus)

theorem coherent_completed (value : o) (hstatus : task.status = .completed)
    (hresult : task.result = some value) (herror : task.error = none)
    (hend : task.completedAt.isSome) : Coherent task past := by
  apply coherent_of_ended <;> simp [hstatus, hresult, herror, hend, Status.isTerminal]

theorem coherent_cancelled (hstatus : task.status = .cancelled) (hresult : task.result = none)
    (herror : task.error = some .cancelled) (hend : task.completedAt.isSome) :
    Coherent task past := by
  apply coherent_of_ended <;> simp [hstatus, hresult, herror, hend, Status.isTerminal]

theorem coherent_failed {e : Failure} (he : e.ofAttempt = true)
    (hstatus : task.status = .failed) (hresult : task.result = none)
    (herror : task.error = some e) (hend : task.completedAt.isSome) : Coherent task past := by
  have hne : e ≠ .cancelled := by
    rintro rfl
    cases he
  apply coherent_of_ended <;> simp [hstatus, hresult, herror, hend, he, hne, Status.isTerminal]

theorem coherent (h : Undergone limit cached task past)
    (hproper : forall e, .error e ∈ past -> e.ofAttempt = true) : Coherent task past := by
  cases hstatus : task.status.isTerminal with
  | false =>
      rcases h.exists_enduring hstatus with ⟨failures, hfailures⟩
      exact hfailures.coherent hstatus hproper
  | true =>
      cases h with
      | new _ _ _ _ => cases hstatus
      | answered _ _ _ _ value _ => exact coherent_completed value rfl rfl rfl rfl
      | started _ _ _ => cases hstatus
      | cancelled h hpending _ =>
          rcases h.exists_enduring (hpending ▸ rfl) with ⟨failures, hfailures⟩
          exact coherent_cancelled rfl hfailures.result rfl rfl
      | succeeded _ _ value _ => exact coherent_completed value rfl rfl rfl rfl
      | retried _ _ _ _ _ => cases hstatus
      | givenUp h hrunning _ _ =>
          rcases h.exists_enduring (hrunning ▸ rfl) with ⟨failures, hfailures⟩
          exact coherent_cancelled rfl hfailures.result rfl rfl
      | failed h hrunning e _ _ _ =>
          rcases h.exists_enduring (hrunning ▸ rfl) with ⟨failures, hfailures⟩
          have he := hproper e (List.mem_append_right _ (List.mem_singleton_self _))
          exact coherent_failed he rfl hfailures.result rfl rfl

end Undergone

/-- What time does to a task. -/
structure Ages (task task' : Task i o) : Prop where
  id : task'.id = task.id
  input : task'.input = task.input
  priority : task'.priority = task.priority
  createdAt : task'.createdAt = task.createdAt
  retries : task.retries ≤ task'.retries
  frozen : task.status.isTerminal = true -> task' = task

theorem Ages.refl (task : Task i o) : Ages task task :=
  ⟨rfl, rfl, rfl, rfl, Nat.le_refl _, fun _ => rfl⟩

theorem Ages.trans {task task' task'' : Task i o} (h : Ages task task')
    (h' : Ages task' task'') : Ages task task'' where
  id := h'.id.trans h.id
  input := h'.input.trans h.input
  priority := h'.priority.trans h.priority
  createdAt := h'.createdAt.trans h.createdAt
  retries := h.retries.trans h'.retries
  frozen := by
    intro hterminal
    have hsame := h.frozen hterminal
    exact (h'.frozen (hsame ▸ hterminal)).trans hsame

theorem Options.maxRetries_normalized (o : Options) :
    o.normalized.maxRetries = o.maxRetries := by
  unfold normalized correct raiseMinWorkers raiseMaxWorkers raiseMaxQueueSize
  simp only
  split <;> split <;> split <;> rfl

namespace State

variable {s : State p i o} {c : Coding i o} {m : Moment p i o} {id : TaskId}

theorem Moves.ages {task task' : Task i o} (h : Moves s m task task') : Ages task task' where
  id := by cases h <;> rfl
  input := h.input_eq
  priority := by cases h <;> rfl
  createdAt := by cases h <;> rfl
  retries := by
    cases h with
    | retry _ _ _ _ => exact Nat.le_succ _
    | _ => exact Nat.le_refl _
  frozen := h.eq_of_isTerminal

theorem Consistent.ages_run (h : s.Consistent) {task task' : Task i o}
    (htask : s.task? id = some task) {later : List (Moment p i o)}
    (hlater : (s.run c later).task? id = some task') : Ages task task' := by
  induction later generalizing s task with
  | nil =>
      have hsame : s.task? id = some task' := hlater
      rw [htask] at hsame
      cases hsame
      exact Ages.refl _
  | cons m later ih =>
      rcases h.task?_act c m id with ⟨hnone, _⟩ | ⟨was, becomes, hwas, hbecomes, hmoves⟩ |
        ⟨_, _, _, _, hgone⟩
      · rw [hnone] at htask
        cases htask
      · rw [hwas] at htask
        cases htask
        exact hmoves.ages.trans (ih (h.act m) hbecomes hlater)
      · -- The record does not come back.
        have hissued := (h.issued htask).act c m
        have hthen : Follows c (s.act c m) (s.run c (m :: later)) := ⟨later, rfl⟩
        have hnone := (h.act m).gone_follows hissued hgone hthen
        exact nomatch hnone.symm.trans hlater

/-- Only clearing touches a task that has come to its end. -/
theorem Consistent.frozen_act (h : s.Consistent) {task : Task i o}
    (htask : s.task? id = some task) (hterminal : task.status.isTerminal = true)
    (m : Moment p i o) :
    (s.act c m).task? id = some task ∨
      m.action = .clearFinished ∧ (s.act c m).task? id = none := by
  rcases h.task?_act c m id with ⟨hnone, _⟩ | ⟨was, becomes, hwas, hbecomes, hmoves⟩ |
    ⟨_, _, _, haction, hgone⟩
  · rw [hnone] at htask
    cases htask
  · rw [hwas] at htask
    cases htask
    rw [hbecomes, hmoves.eq_of_isTerminal hterminal]
    exact Or.inl rfl
  · exact Or.inr ⟨haction, hgone⟩

theorem ofAttempt_of_mem_outcomes {e : Failure} {ms : List (Moment p i o)}
    (h : .error e ∈ s.outcomes c id ms) : e.ofAttempt = true := by
  induction ms generalizing s with
  | nil => cases h
  | cons m ms ih =>
      cases List.mem_append.mp h with
      | inl hfirst =>
          rcases outcome?_eq_some.mp (Option.mem_toList.mp hfirst) with
            ⟨_, _, _, _, _, _, _, houtcome⟩
          exact ofAttempt_of_outcome houtcome
      | inr hrest => exact ih hrest

/-- Whatever happens to a new scheduler, in whatever order: the fields of every task in the
index agree with each other and with the outcomes of its attempts, and without a change of
the options it is not tried more often than they say.  Whatever happens next, the task only
ages, and once it has come to its end, nothing but clearing touches it. -/
theorem coherent_run (c : Coding i o) (options : Options) (cacheOptions : Cache.Options)
    {ids : IdSource} (hids : Function.Injective ids.nth) {ms : List (Moment p i o)}
    {id : TaskId} {task : Task i o} :
    let s₀ : State p i o := (State.new options cacheOptions ids).state
    let s := s₀.run c ms
    s.task? id = some task ->
      task.id = id ∧ Coherent task (s₀.outcomes c id ms) ∧
        (Unconfigured ms -> task.retries ≤ options.maxRetries) ∧
        (forall later task', (s.run c later).task? id = some task' -> Ages task task') ∧
        (task.status.isTerminal = true -> forall m, (s.act c m).task? id = some task ∨
          m.action = .clearFinished ∧ (s.act c m).task? id = none) := by
  intro s₀ s htask
  have hs₀ : s₀.Consistent := consistent_new options cacheOptions hids
  have hs : s.Consistent := hs₀.run ms
  have hlimit : forall earlier, earlier <+: ms -> Unconfigured ms ->
      (s₀.run c earlier).options.maxRetries = options.maxRetries := by
    intro earlier hearlier hms
    rw [options_run c s₀ fun m hm => hms m (hearlier.subset hm)]
    exact options.maxRetries_normalized
  have hundergoes : ((Course.start s₀).run c ms).Undergoes
      (fun n => Unconfigured ms -> n = options.maxRetries) id (s₀.outcomes c id ms) :=
    Course.Undergoes.run (x := Course.start s₀) hs₀ rfl fun earlier hearlier _ =>
      hlimit earlier hearlier
  have hundergone := hundergoes task (by rw [Course.state_run]; exact htask)
  refine ⟨?_, ?_, ?_, ?_, ?_⟩
  · rcases Option.map_eq_some_iff.mp htask with ⟨r, hrecord, rfl⟩
    exact id_of_record? hrecord
  · exact hundergone.coherent fun e he => ofAttempt_of_mem_outcomes he
  · exact fun hms => hundergone.retries_le fun n hn => (hn hms).le
  · exact fun later task' hlater => hs.ages_run htask hlater
  · exact fun hterminal m => hs.frozen_act htask hterminal m

/-- A task that was tried again and has completed since, which a cancellation does not
touch. -/
theorem coherent_retried :
    let c : Coding String String := { input := fun _ => none, output := .text }
    let ms : List (Moment Unit String String) :=
      [⟨0, .setProcessor ()⟩, ⟨1, .submit "a" 0⟩, ⟨1, .dispatch⟩,
        ⟨2, .finish 0 (.error (.execution "no")) .zero⟩, ⟨2, .dispatch⟩,
        ⟨3, .finish 0 (.ok "done") .zero⟩]
    let s₀ := (new (.forWorkers 1) .default (.sequential "task")).state
    let s := s₀.run c ms
    exists task, s.task? ⟨"task-1"⟩ = some task ∧ task.status = .completed ∧
      Coherent task (s₀.outcomes c ⟨"task-1"⟩ ms) ∧ task.retries ≤ 2 ∧
      (s.act c ⟨4, .cancel ⟨"task-1"⟩⟩).task? ⟨"task-1"⟩ = some task := by
  intro c ms s₀ s
  have hstatus : (s.task? ⟨"task-1"⟩).map Task.status = some .completed := by decide +kernel
  rcases Option.map_eq_some_iff.mp hstatus with ⟨task, htask, hcompleted⟩
  have hms : Unconfigured ms := by simp [Unconfigured, ms, Action.configures]
  rcases coherent_run c (.forWorkers 1) .default (injective_sequential "task") htask with
    ⟨_, hcoherent, hretries, _, hfrozen⟩
  refine ⟨task, htask, hcompleted, hcoherent, hretries hms, ?_⟩
  cases hfrozen (hcompleted ▸ rfl) ⟨4, .cancel ⟨"task-1"⟩⟩ with
  | inl hsame => exact hsame
  | inr hcleared => cases hcleared.1

end State
end Scheduler
end CodeSurvey
