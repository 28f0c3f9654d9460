import CodeSurvey.Proofs.Scheduler.Outcomes
import CodeSurvey.Proofs.Scheduler.Precedence

/-!
# The fate of a task

A task that is neither answered from the cache nor cancelled is tried until an attempt
succeeds or the retries are used up.  Nothing else has a say in what becomes of it.
-/

namespace CodeSurvey
namespace Scheduler

namespace Told

variable {graceElapsed : Prop} {id : TaskId} {status : Status} {n : Nat}
  {events : List Event}

/-- How many attempts were started at a task, by its status. -/
def Starts (id : TaskId) (n : Nat) (events : List Event) : Status -> Prop
  | .pending => events.countP Event.isStarted = n
  | .running | .failed => events.countP Event.isStarted = n + 1
  | .completed => events.countP Event.isStarted = n + 1 ∨ .completed id .zero true ∈ events
  | .cancelled => True

theorem starts (h : Told graceElapsed id status n events) : Starts id n events status := by
  induction h with
  | queued => rfl
  | answered => exact Or.inr (List.mem_cons_of_mem _ (List.mem_singleton_self _))
  | started _ ih => exact List.countP_append.trans (congrArg Nat.succ ih)
  | cancelled _ _ => trivial
  | completed _ ih => exact Or.inl (List.countP_append.trans ih)
  | retrying _ ih => exact List.countP_append.trans ih
  | failed _ ih => exact List.countP_append.trans ih
  | givenUp _ _ _ => trivial

end Told

/-- What becomes of a task, with `n` retries, from the outcomes of its attempts and the
number of those that were started. -/
inductive Fate (n : Nat) (task : Task i o) (outcomes : List (Except Failure o))
    (starts : Nat) : Prop where
  | completed (failures : List Failure) (value : o)
      (houtcomes : outcomes = failures.map .error ++ [.ok value])
      (hlimit : failures.length ≤ n) (hstatus : task.status = .completed)
      (hresult : task.result = some value) (herror : task.error = none)
      (hretries : task.retries = failures.length) (hstarts : starts = failures.length + 1)
  | failed (failures : List Failure) (last : Failure)
      (houtcomes : outcomes = failures.map .error ++ [.error last])
      (hlimit : failures.length = n) (hstatus : task.status = .failed)
      (hresult : task.result = none) (herror : task.error = some last)
      (hretries : task.retries = n) (hstarts : starts = n + 1)

theorem Undergone.fate {cached : Prop} {n starts : Nat} {task : Task i o}
    {past : List (Except Failure o)} (h : Undergone (· = n) cached task past)
    (hcached : ¬ cached) (hended : task.status.isTerminal = true)
    (hcancelled : task.status ≠ .cancelled) (hstarts : starts = task.retries + 1) :
    Fate n task past starts := by
  have hle := h.retries_le fun _ heq => Nat.le_of_eq heq
  cases h with
  | new _ _ _ _ => cases hended
  | answered _ _ _ _ _ h => exact absurd h hcached
  | started _ _ _ => cases hended
  | cancelled _ _ _ => exact absurd rfl hcancelled
  | succeeded h hrunning value now =>
      rcases h.exists_enduring (hrunning ▸ rfl) with ⟨failures, hfailures⟩
      have hretries := hfailures.retries
      apply Fate.completed failures value
      case houtcomes => rw [hfailures.past]
      case hlimit => exact hretries ▸ hle
      case hstatus => rfl
      case hresult => rfl
      case herror => rfl
      case hretries => exact hretries
      case hstarts => exact hstarts.trans (congrArg Nat.succ hretries)
  | retried _ _ _ _ _ => cases hended
  | givenUp _ _ _ _ => exact absurd rfl hcancelled
  | failed h hrunning last now hlimit hused =>
      rcases h.exists_enduring (hrunning ▸ rfl) with ⟨failures, hfailures⟩
      subst hlimit
      have hretries := Nat.le_antisymm hle hused
      apply Fate.failed failures last
      case houtcomes => rw [hfailures.past]
      case hlimit => exact hfailures.retries.symm.trans hretries
      case hstatus => rfl
      case hresult => exact hfailures.result
      case herror => rfl
      case hretries => exact hretries
      case hstarts => exact hstarts.trans (congrArg Nat.succ hretries)

namespace Course

variable {x : Course p i o} {id : TaskId} {task : Task i o}

/-- What the observers were told of a task goes with its status. -/
theorem Sound.exists_told (h : x.Sound) (htask : x.state.task? id = some task) :
    Told (x.graceElapsed = true) id task.status task.retries (Event.about id x.log) := by
  rcases Option.map_eq_some_iff.mp htask with ⟨r, hrecord, rfl⟩
  rcases (State.record?_eq_some h.1.ids_nodup).mp hrecord with ⟨hr, rfl⟩
  exact h.2.indexed r hr

theorem Sound.not_cancelled (h : x.Sound) (htask : x.state.task? id = some task)
    (hcancelled : .cancelled id ∉ x.log) : task.status ≠ .cancelled := by
  intro hstatus
  have hlast := (h.exists_told htask).status_eq
  rw [hstatus] at hlast
  rcases Option.bind_eq_some_iff.mp hlast with ⟨e, he, hcancel⟩
  rcases List.mem_filter.mp (List.mem_of_getLast? he) with ⟨hmem, habout⟩
  cases e with
  | cancelled other =>
      cases of_decide_eq_true habout
      exact hcancelled hmem
  | _ => cases hcancel

theorem Sound.countP_isStarted (h : x.Sound) (htask : x.state.task? id = some task)
    (hended : task.status.isTerminal = true) (hanswered : ¬ x.Answered id)
    (hcancelled : task.status ≠ .cancelled) :
    (Event.about id x.log).countP Event.isStarted = task.retries + 1 := by
  have hstarts := (h.exists_told htask).starts
  cases hstatus : task.status with
  | pending => rw [hstatus] at hended; cases hended
  | running => rw [hstatus] at hended; cases hended
  | completed =>
      rw [hstatus] at hstarts
      cases hstarts with
      | inl heq => exact heq
      | inr hmem => exact absurd (List.mem_of_mem_filter hmem) hanswered
  | failed => rw [hstatus] at hstarts; exact hstarts
  | cancelled => exact absurd hstatus hcancelled

/-- Whatever happens to a new scheduler, in whatever order: take a task that has come to its
end, was not answered from the cache and not cancelled, and for which, as long as it waited
or ran, `n` retries were allowed.  It has completed with the value of its last attempt, the
first to succeed, or failed with the error of its last attempt, the last that was allowed. -/
theorem fate_run (c : Coding i o) (options : Options) (cacheOptions : Cache.Options)
    {ids : IdSource} (hids : Function.Injective ids.nth) (ms : List (Moment p i o))
    {id : TaskId} {task : Task i o} {n : Nat} :
    let s₀ : State p i o := (State.new options cacheOptions ids).state
    let x := (start s₀).run c ms
    x.state.task? id = some task -> task.status.isTerminal = true -> ¬ x.Answered id ->
      .cancelled id ∉ x.log ->
      (forall earlier, earlier <+: ms -> (s₀.run c earlier).Underway id ->
        (s₀.run c earlier).options.maxRetries = n) ->
      Fate n task (s₀.outcomes c id ms) ((Event.about id x.log).countP Event.isStarted) := by
  intro s₀ x htask hended hanswered hcancelled hretries
  have hs₀ : s₀.Consistent := State.consistent_new options cacheOptions hids
  have hsound : x.Sound := (sound_start options cacheOptions hids).run ms
  have hstatus := hsound.not_cancelled htask hcancelled
  have hundergoes : x.Undergoes (· = n) id (s₀.outcomes c id ms) :=
    Undergoes.run (x := start s₀) hs₀ rfl hretries
  have hstarts := hsound.countP_isStarted htask hended hanswered hstatus
  exact (hundergoes task htask).fate hanswered hended hstatus hstarts

/-- A task that succeeds in its second attempt, while another one runs and the scheduler is
paused for a time. -/
theorem fate_retried :
    let c : Coding String String := { input := fun _ => none, output := .text }
    let ms : List (Moment Unit String String) :=
      [⟨0, .setProcessor ()⟩, ⟨1, .submit "a" 0⟩, ⟨1, .submit "b" 5⟩, ⟨1, .dispatch⟩,
        ⟨2, .finish 1 (.error (.execution "no")) .zero⟩, ⟨3, .pause⟩,
        ⟨4, .finish 0 (.ok "other") .zero⟩, ⟨5, .resume⟩, ⟨5, .dispatch⟩,
        ⟨6, .finish 0 (.ok "done") .zero⟩]
    let s₀ := (State.new (.forWorkers 1) .default (.sequential "task")).state
    let x := (start s₀).run c ms
    exists task, x.state.task? ⟨"task-1"⟩ = some task ∧
      Fate 2 task (s₀.outcomes c ⟨"task-1"⟩ ms)
        ((Event.about ⟨"task-1"⟩ x.log).countP Event.isStarted) := by
  intro c ms s₀ x
  have hstatus : (x.state.task? ⟨"task-1"⟩).map Task.status = some .completed := by
    decide +kernel
  rcases Option.map_eq_some_iff.mp hstatus with ⟨task, htask, hcompleted⟩
  have hms : State.Unconfigured ms := by simp [State.Unconfigured, ms, Action.configures]
  have hretries : forall earlier, earlier <+: ms ->
      (s₀.run c earlier).options.maxRetries = 2 := by
    intro earlier hearlier
    rw [State.options_run c s₀ fun m hm => hms m (hearlier.subset hm)]
    rfl
  refine ⟨task, htask, ?_⟩
  apply fate_run c (.forWorkers 1) .default (State.injective_sequential "task") ms htask
  · rw [hcompleted]
    rfl
  · unfold Answered
    decide +kernel
  · decide +kernel
  · exact fun earlier hearlier _ => hretries earlier hearlier

end Course
end Scheduler
end CodeSurvey
