import CodeSurvey.Proofs.Scheduler.Settled
import CodeSurvey.Proofs.Steps
import Mathlib.Data.List.Forall2

/-!
# What a batch returns

A batch looks at the scheduler again and again until it has seen the end of each of its
tasks, and others may act on the scheduler in between.  Each of its results is that of one
task, as it was at the first look that found the task at its end or its record cleared.
-/

namespace CodeSurvey
namespace Scheduler

open Simulation (World coding)
open State (Follows Settled Clears)

/-- A task waits or runs. -/
def State.Underway (s : State p i o) (id : TaskId) : Prop :=
  exists task, s.task? id = some task ∧ (task.status = .pending ∨ task.status = .running)

theorem State.Settled.not_underway {s : State p i o} {id : TaskId} (h : s.Settled id) :
    ¬ s.Underway id := by
  rintro ⟨task, htask, hstatus⟩
  have hterminal := h.ended task htask
  cases hstatus with
  | inl hpending => exact Status.ne_pending_of_isTerminal hterminal hpending
  | inr hrunning => exact Status.ne_running_of_isTerminal hterminal hrunning

namespace Batch

variable {h : Host p i o w} {c : Coding i o}

/-!
# The tasks of a batch
-/

/-- Inputs are submitted one after the other, and none of them is refused; `tasks` are the
tasks that the submissions return. -/
inductive Submits (h : Host p i o w) (c : Coding i o) :
    w -> List i -> w -> List (Task i o) -> Prop where
  | nil : Submits h c x [] x []
  | cons (hcall : h.call x (·.submit c (h.now x) input 0) = (y, .ok task))
      (hrest : Submits h c y rest z tasks) : Submits h c x (input :: rest) z (task :: tasks)

theorem Submits.length_eq {x y : w} {inputs : List i} {tasks : List (Task i o)}
    (hsubmits : Submits h c x inputs y tasks) : inputs.length = tasks.length := by
  induction hsubmits with
  | nil => rfl
  | cons _ _ ih => exact congrArg Nat.succ ih

theorem exists_submits_of_submitAll {inputs : List i} {ids ids' : List TaskId} {x y : w}
    (hall : submitAll h c ids inputs x = (y, ids', none)) :
    exists tasks, Submits h c x inputs y tasks ∧ ids' = ids ++ tasks.map Task.id := by
  induction inputs generalizing ids x with
  | nil =>
      cases hall
      exact ⟨[], .nil, (List.append_nil _).symm⟩
  | cons input rest ih =>
      unfold submitAll at hall
      split at hall
      next z task hcall =>
        rcases ih hall with ⟨tasks, hrest, hids⟩
        refine ⟨task :: tasks, .cons hcall hrest, ?_⟩
        rw [hids, List.append_assoc]
        rfl
      next z refusal hcall => cases hall

theorem exists_submits {inputs : List i} {x y : w} {b : Batch o}
    (hsubmit : submit h c inputs x = (y, .ok b)) :
    exists tasks, Submits h c x inputs y tasks ∧ b = ofIds (tasks.map Task.id) := by
  unfold submit at hsubmit
  split at hsubmit
  next z ids hall =>
    rcases exists_submits_of_submitAll hall with ⟨tasks, hsubmits, hids⟩
    cases hsubmit
    exact ⟨tasks, hsubmits, congrArg ofIds hids⟩
  next z ids refusal hall => cases hsubmit

theorem submit_eq_of_ids {inputs : List i} {x : w} {ids : List TaskId}
    (hids : (submit h c inputs x).2.map (List.map BatchEntry.id) = .ok ids) :
    submit h c inputs x = ((submit h c inputs x).1, .ok (ofIds ids)) := by
  rcases map_eq_ok_iff.mp hids with ⟨b, hb, rfl⟩
  rcases exists_submits (Prod.ext rfl hb) with ⟨tasks, _, rfl⟩
  have hsame : (ofIds (tasks.map Task.id) : Batch o).map BatchEntry.id = tasks.map Task.id := by
    simp [ofIds]
  rw [hsame]
  exact Prod.ext rfl hb

/-!
# Looking at the scheduler
-/

/-- A batch that was called in the world `x` has looked at the scheduler in `looks`, the
last time in the world `y`. -/
inductive Goes (h : Host p i o w) (c : Coding i o) (inputs : List i) (x : w) :
    List (State p i o) -> w -> Batch o -> Prop where
  | start (hsubmit : submit h c inputs x = (y, .ok b)) : Goes h c inputs x [] y b
  /-- Others have acted; then the batch looks again. -/
  | look (hgoes : Goes h c inputs x looks y b) (hothers : Follows c (h.state y) (h.state z)) :
      Goes h c inputs x (looks ++ [h.state z]) z (b.look (h.state z))

structure Reports (task : Task i o) (res : BatchResult o) : Prop where
  id : res.id = task.id
  success : res.success = true ↔ task.status = .completed
  result : res.result = task.result
  error : res.error = task.error
  retries : res.retries = task.retries
  duration : res.duration = task.duration

theorem reports_ofTask (task : Task i o) : Reports task (.ofTask task) where
  id := rfl
  success := decide_eq_true_iff
  result := rfl
  error := rfl
  retries := rfl
  duration := rfl

/-- How a batch that was called in the state `s` comes by the result for a task. -/
inductive Collected (c : Coding i o) (s : State p i o) (looks : List (State p i o))
    (task : Task i o) (res : BatchResult o) : Prop where
  /-- At one look the task was at its end, and before it was not. -/
  | seen {ended : Task i o} (hlooks : looks = before ++ u :: after)
      (hbefore : forall v, v ∈ before -> v.Underway task.id)
      (hended : u.task? task.id = some ended) (hterminal : ended.status.isTerminal = true)
      (hinput : ended.input = task.input) (hreports : Reports ended res)
  /-- At one look the record was gone, and before the task was not at its end: it came to
  its end in between, and then its record was cleared. -/
  | cleared (hlooks : looks = before ++ u :: after)
      (hbefore : forall v, v ∈ before -> v.Underway task.id)
      (hgone : u.task? task.id = none) (hclears : Clears c s u task.id task.input)
      (hbetween : forall v, v ∈ before -> Clears c v u task.id task.input)
      (hid : res.id = task.id) (hsuccess : res.success = false)
      (hresult : res.result = none) (herror : res.error = some .cleared)

/-!
# One task of a batch
-/

/-- What a batch knows of a task when the scheduler is in the state `t`. -/
inductive Tracks (c : Coding i o) (s : State p i o) (looks : List (State p i o))
    (t : State p i o) (task : Task i o) : BatchEntry o -> Prop where
  /-- No look has found the task at its end; `u` is the state of the last one, or that
  after the submission. -/
  | unseen {was : Task i o} (hlooks : forall v, v ∈ looks -> v.Underway task.id)
      (hu : u.Consistent) (hwas : u.task? task.id = some was) (hinput : was.input = task.input)
      (hcalled : Follows c s u) (hbetween : forall v, v ∈ looks -> Follows c v u)
      (hfollows : Follows c u t) : Tracks c s looks t task ⟨task.id, none⟩
  | found (hres : Collected c s looks task res) (hsettled : t.Settled task.id) :
      Tracks c s looks t task ⟨task.id, some res⟩

variable {s t u : State p i o} {looks : List (State p i o)} {task : Task i o}

theorem Collected.id_eq {res : BatchResult o} (hres : Collected c s looks task res) :
    res.id = task.id := by
  cases hres with
  | seen _ _ hended _ _ hreports =>
      rcases Option.map_eq_some_iff.mp hended with ⟨r, hrecord, rfl⟩
      exact hreports.id.trans (State.id_of_record? hrecord)
  | cleared _ _ _ _ _ hid _ _ _ => exact hid

theorem Collected.later {res : BatchResult o} (hres : Collected c s looks task res)
    (more : List (State p i o)) : Collected c s (looks ++ more) task res := by
  cases hres with
  | seen hlooks hbefore hended hterminal hinput hreports =>
      subst hlooks
      exact .seen (List.append_assoc _ _ more) hbefore hended hterminal hinput hreports
  | cleared hlooks hbefore hgone hclears hbetween hid hsuccess hresult herror =>
      subst hlooks
      exact .cleared (List.append_assoc _ _ more) hbefore hgone hclears hbetween hid hsuccess
        hresult herror

theorem look_of_gone {id : TaskId} (hgone : u.task? id = none) :
    BatchEntry.look u (⟨id, none⟩ : BatchEntry o) = ⟨id, some (.cleared id)⟩ := by
  unfold BatchEntry.look
  simp only [hgone]

theorem look_of_task? {id : TaskId} (htask : u.task? id = some task) :
    BatchEntry.look u (⟨id, none⟩ : BatchEntry o) =
      ⟨id, if task.status.isTerminal then some (.ofTask task) else none⟩ := by
  unfold BatchEntry.look
  simp only [htask]
  split
  · rfl
  · rfl

theorem underway_of_task? {id : TaskId} (htask : u.task? id = some task)
    (hstatus : ¬ task.status.isTerminal = true) : u.Underway id := by
  refine ⟨task, htask, ?_⟩
  cases heq : task.status with
  | pending => exact Or.inl rfl
  | running => exact Or.inr rfl
  | completed => exact absurd (heq ▸ rfl) hstatus
  | failed => exact absurd (heq ▸ rfl) hstatus
  | cancelled => exact absurd (heq ▸ rfl) hstatus

theorem Tracks.look {e : BatchEntry o} (htracks : Tracks c s looks t task e)
    (ht : t.Consistent) (htu : Follows c t u) :
    Tracks c s (looks ++ [u]) u task (e.look u) := by
  have hu := ht.follows htu
  cases htracks with
  | found hres hsettled => exact .found (hres.later [u]) (hsettled.follows ht htu)
  | unseen hlooks hv hwas hinput hcalled hbetween hfollows =>
      -- What may have been cleared is compared with the last state in which there was a record.
      have hsince := hfollows.trans htu
      rcases hv.kept_or_cleared hwas hsince with ⟨now, hnow, hsame⟩ | ⟨hgone, hclears⟩
      · have hinput' := hsame.trans hinput
        rw [look_of_task? hnow]
        split
        next hterminal =>
          exact .found (.seen rfl hlooks hnow hterminal hinput' (reports_ofTask now))
            (hu.settled hnow hterminal)
        next hopen =>
          refine .unseen ?_ hu hnow hinput' (hcalled.trans hsince) ?_ (Follows.refl c u)
          · intro v hmem
            cases List.mem_append.mp hmem with
            | inl hmem => exact hlooks v hmem
            | inr hmem => exact List.mem_singleton.mp hmem ▸ underway_of_task? hnow hopen
          · intro v hmem
            cases List.mem_append.mp hmem with
            | inl hmem => exact (hbetween v hmem).trans hsince
            | inr hmem => exact List.mem_singleton.mp hmem ▸ Follows.refl c u
      · rw [look_of_gone hgone]
        rw [hinput] at hclears
        have hsettled := ((hv.issued hwas).follows hsince).settled hgone
        refine .found (.cleared rfl hlooks hgone (hclears.after hcalled) ?_ rfl rfl rfl rfl)
          hsettled
        exact fun v hmem => hclears.after (hbetween v hmem)

/-!
# All tasks of a batch
-/

theorem Submits.tracks {x y : w} {inputs : List i} {tasks : List (Task i o)}
    (hsubmits : Submits h c x inputs y tasks) (hstep : h.Stepwise c) (hanswers : h.Answers)
    (hx : (h.state x).Consistent) :
    Follows c (h.state x) (h.state y) ∧ forall s, Follows c s (h.state x) ->
      List.Forall₂ (Tracks c s [] (h.state y)) tasks (ofIds (tasks.map Task.id)) := by
  induction hsubmits with
  | nil => exact ⟨Follows.refl c _, fun _ _ => .nil⟩
  | @cons x input y task rest z tasks hcall _ ih =>
      let call : Call p i o (Except Refusal (Task i o)) := (·.submit c (h.now x) input 0)
      let m : Moment p i o := ⟨h.now x, .submit input 0⟩
      have hresult : (call (h.state x)).result = .ok task := by
        rw [← hanswers x call]
        exact congrArg Prod.snd hcall
      have hcalled : Follows c ((h.state x).act c m) (h.state y) := by
        have hcalled := hstep.called x call m rfl
        rw [show (h.call x call).1 = y from congrArg Prod.fst hcall] at hcalled
        exact hcalled
      -- Others may act after the submission of one input and before that of the next one.
      have hsubmitted := State.follows_act c (h.state x) m
      have hxy := hsubmitted.trans hcalled
      rcases ih (hx.follows hxy) with ⟨hyz, hrest⟩
      refine ⟨hxy.trans hyz, fun s hs => .cons ?_ (hrest s (hs.trans hxy))⟩
      exact .unseen (fun _ hv => nomatch hv) (hx.act m) (hx.task?_submit hresult).1 rfl
        (hs.trans hsubmitted) (fun _ hv => nomatch hv) (hcalled.trans hyz)

/-- At whatever look a batch is, it keeps track of each of its tasks. -/
theorem Goes.tracks {inputs : List i} {x y : w} {b : Batch o}
    (hgoes : Goes h c inputs x looks y b) (hstep : h.Stepwise c) (hanswers : h.Answers)
    (hx : (h.state x).Consistent) :
    (h.state y).Consistent ∧ exists z tasks, Submits h c x inputs z tasks ∧
      List.Forall₂ (Tracks c (h.state x) looks (h.state y)) tasks b := by
  induction hgoes with
  | start hsubmit =>
      rcases exists_submits hsubmit with ⟨tasks, hsubmits, rfl⟩
      rcases hsubmits.tracks hstep hanswers hx with ⟨hxy, htracks⟩
      exact ⟨hx.follows hxy, _, tasks, hsubmits, htracks _ (Follows.refl c _)⟩
  | look _ hothers ih =>
      rcases ih with ⟨hy, z, tasks, hsubmits, htracks⟩
      refine ⟨hy.follows hothers, z, tasks, hsubmits, ?_⟩
      unfold Batch.look
      rw [List.forall₂_map_right_iff]
      exact htracks.imp fun _ _ h => h.look hy hothers

theorem forall₂_collected {tasks : List (Task i o)} {b : Batch o}
    {results : List (BatchResult o)} (htracks : List.Forall₂ (Tracks c s looks t) tasks b)
    (hresults : b.results? = some results) :
    (forall task, task ∈ tasks -> t.Settled task.id) ∧
      List.Forall₂ (Collected c s looks) tasks results := by
  rw [← List.forall₂_and_left]
  unfold results? at hresults
  induction htracks generalizing results with
  | nil =>
      cases hresults
      exact .nil
  | cons hhead _ ih =>
      rw [List.mapM_cons] at hresults
      cases hhead with
      | unseen => cases hresults
      | found hres hsettled =>
          rcases Option.bind_eq_some_iff.mp hresults with ⟨res', hres', hrest⟩
          rcases Option.bind_eq_some_iff.mp hrest with ⟨others, hothers, hcons⟩
          cases hres'
          cases hcons
          exact .cons ⟨hsettled, hres⟩ (ih hothers)

end Batch

namespace State

variable {c : Coding i o}

/-- Whatever happened to a scheduler before, and whatever happens to it while a batch
waits: when the batch has all its results, there is one for each input, in the order of the
inputs, with the id that the submission of the input returned.  It says what the task was
like at its end, or that the record was cleared; the latter only if that happened between
the end of the task and the next look of the batch.  No task of the batch waits or runs by
then. -/
theorem batch_complete (c : Coding i o) (options : Options) (cacheOptions : Cache.Options)
    {ids : IdSource} (hids : Function.Injective ids.nth) (ms : List (Moment p i o)) :
    let s := (new options cacheOptions ids).state.run c ms
    forall (w : Type) (h : Host p i o w) (inputs : List i) (x y : w)
      (looks : List (State p i o)) (b : Batch o) (results : List (BatchResult o)),
      h.Stepwise c -> h.Answers -> h.state x = s -> Batch.Goes h c inputs x looks y b ->
        b.results? = some results ->
          exists z tasks, Batch.Submits h c x inputs z tasks ∧
            results.length = inputs.length ∧ results.map BatchResult.id = tasks.map Task.id ∧
            List.Forall₂ (Batch.Collected c s looks) tasks results ∧
            forall task, task ∈ tasks -> ¬ (h.state y).Underway task.id := by
  intro s w h inputs x y looks b results hstep hanswers hx hgoes hresults
  have hs : s.Consistent := (consistent_new options cacheOptions hids).run ms
  rw [← hx] at hs ⊢
  rcases hgoes.tracks hstep hanswers hs with ⟨hy, z, tasks, hsubmits, htracks⟩
  rcases Batch.forall₂_collected htracks hresults with ⟨hsettled, hcollected⟩
  have hids : List.Forall₂ Eq (tasks.map Task.id) (results.map BatchResult.id) := by
    rw [List.forall₂_map_left_iff, List.forall₂_map_right_iff]
    exact hcollected.imp fun _ _ h => h.id_eq.symm
  rw [List.forall₂_eq_eq_eq] at hids
  have hlength := hcollected.length_eq.symm.trans hsubmits.length_eq.symm
  exact ⟨z, tasks, hsubmits, hlength, hids.symm, hcollected,
    fun task htask => (hsettled task htask).not_underway⟩

/-- In a simulation, a batch of two tasks sees one of them at its end, while the other is cleared
before. -/
theorem batch_complete_cleared :
    let options := { Options.forWorkers 1 with enableCaching := false }
    let script : Simulation.Script := { named := [], fallback := [] }
    let ms : List (Moment Simulation.Processor Json.Value Json.Value) :=
      [⟨0, .setProcessor { number := 0, script }⟩, ⟨0, .dispatch⟩]
    let s := (new options .default (.sequential "task")).state.run coding ms
    let x := (World.new options .default (.sequential "task") 0).setScript script
    let y := (Batch.submit World.host coding [.text "a", .text "b"] x).1
    let early := [⟨4, .finish 0 (.ok (.text "A")) .zero⟩]
    let late := [⟨4, .dispatch⟩, ⟨5, .finish 0 (.ok (.text "B")) .zero⟩, ⟨6, .clearFinished⟩]
    let first : World := { y with scheduler := y.scheduler.run coding early }
    let second : World := { first with scheduler := first.scheduler.run coding late }
    exists results z tasks,
      results.map (fun res => (res.id, res.result >>= Json.Value.text?, res.error)) =
        [(⟨"task-1"⟩, some "A", none), (⟨"task-2"⟩, none, some .cleared)] ∧
      Batch.Submits World.host coding x [.text "a", .text "b"] z tasks ∧
      results.map BatchResult.id = tasks.map Task.id ∧
      List.Forall₂ (Batch.Collected coding s [first.scheduler, second.scheduler]) tasks results ∧
      forall task, task ∈ tasks -> ¬ second.scheduler.Underway task.id := by
  intro options script ms s x y early late first second
  have hids := injective_sequential "task"
  have hx : World.host.state x = s := rfl
  have hsubmit : Batch.submit World.host coding [.text "a", .text "b"] x =
      (y, .ok (Batch.ofIds [⟨"task-1"⟩, ⟨"task-2"⟩])) :=
    Batch.submit_eq_of_ids (by decide +kernel)
  have hanswer : (((Batch.ofIds [⟨"task-1"⟩, ⟨"task-2"⟩]).look first.scheduler).look
      second.scheduler).results?.map
        (List.map fun res => (res.id, res.result >>= Json.Value.text?, res.error)) =
      some [(⟨"task-1"⟩, some "A", none), (⟨"task-2"⟩, none, some .cleared)] := by
    decide +kernel
  rcases Option.map_eq_some_iff.mp hanswer with ⟨results, hresults, hshown⟩
  -- From here on it does not matter what the world of the batch is like.
  clear_value y
  have hgoes := ((Batch.Goes.start hsubmit).look (World.follows_run y early)).look
    (World.follows_run first late)
  rcases batch_complete coding options .default hids ms World World.host [.text "a", .text "b"] x
    second [first.scheduler, second.scheduler] _ results World.stepwise_host World.answers_host hx
    hgoes hresults with ⟨z, tasks, hsubmits, _, hmap, hcollected, hover⟩
  exact ⟨results, z, tasks, hshown, hsubmits, hmap, hcollected, hover⟩

end State
end Scheduler
end CodeSurvey
