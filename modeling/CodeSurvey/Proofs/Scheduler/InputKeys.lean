import CodeSurvey.Proofs.Json.Compact
import CodeSurvey.Proofs.Scheduler.Settled
import Mathlib.Data.Set.Function

/-!
# Keys and the inputs they are made of

The key of a task is made of its input when it is submitted, and from then on it stays in the
record of the task.  The members of objects are sorted before, so the inputs of one key are the
same but for the order of members, as long as no two of their texts have the same digest.
-/

namespace CodeSurvey
namespace Scheduler

/-!
# The same input
-/

namespace Coding

/-- Inputs are written with the members of objects in any order.  The members are sorted
before the text of an input is taken. -/
def sorting (written : i -> Option Json.Value) (output : Cache.Form o) : Coding i o :=
  { input := fun x => (written x).map Json.Value.canonical, output }

def texts (c : Coding i o) (ms : List (Moment p i o)) : Set String :=
  { text | exists m x priority v, m ∈ ms ∧ m.action = .submit x priority ∧
      c.input x = some v ∧ text = v.compact }

/-- The texts of all inputs, up to this submission, have digests of their own. -/
def Apart (c : Coding i o) (ms : List (Moment p i o)) (now : Int) (x : i) (priority : Int) :
    Prop :=
  Set.InjOn Digest.ofText (c.texts (ms ++ [(⟨now, .submit x priority⟩ : Moment p i o)]))

/-- Both inputs are written as the same JSON value, but for the order of members. -/
def Same (written : i -> Option Json.Value) (x y : i) : Prop :=
  exists v w, written x = some v ∧ written y = some w ∧ v.Alike w

variable {written : i -> Option Json.Value} {output : Cache.Form o} {x y : i} {key : String}

theorem Same.key_eq (h : Same written x y) (output : Cache.Form o) :
    exists key, (sorting written output).key x = some key ∧
      (sorting written output).key y = some key := by
  rcases h with ⟨v, w, hv, hw, halike⟩
  refine ⟨Digest.ofText v.canonical.compact, ?_, ?_⟩
  · unfold Coding.key sorting
    simp only
    rw [hv]
    rfl
  · unfold Coding.key sorting
    simp only
    rw [hw, halike]
    rfl

/-- As long as no two texts have the same digest, a key tells the input. -/
theorem same_of_key_eq {ms : List (Moment p i o)}
    (hdigests : Set.InjOn Digest.ofText ((sorting written output).texts ms))
    {m n : Moment p i o} (hm : m ∈ ms) (hn : n ∈ ms)
    (hx : m.action = .submit x priority) (hy : n.action = .submit y priority')
    (hkx : (sorting written output).key x = some key)
    (hky : (sorting written output).key y = some key) : Same written x y := by
  rcases Option.map_eq_some_iff.mp hkx with ⟨v', hv', hdigest⟩
  rcases Option.map_eq_some_iff.mp hky with ⟨w', hw', hdigest'⟩
  rcases Option.map_eq_some_iff.mp hv' with ⟨v, hv, rfl⟩
  rcases Option.map_eq_some_iff.mp hw' with ⟨w, hw, rfl⟩
  have htext := hdigests ⟨m, x, priority, _, hm, hx, hv', rfl⟩
    ⟨n, y, priority', _, hn, hy, hw', rfl⟩ (hdigest.trans hdigest'.symm)
  exact ⟨v, w, hv, hw, Json.Value.alike_of_compact_eq htext⟩

end Coding

/-- It is the submission of a task with this id and input, and it was not refused. -/
def Moment.Submits (m : Moment p i o) (c : Coding i o) (s : State p i o) (id : TaskId)
    (input : i) : Prop :=
  exists priority task, m.action = .submit input priority ∧
    (s.submit c m.now input priority).result = .ok task ∧ task.id = id

namespace State

variable {s s₀ : State p i o} {c : Coding i o} {m : Moment p i o} {id : TaskId} {x : i}
  {key : String}

/-!
# Submissions
-/

theorem id_accept (s : State p i o) (now : Int) (input : i) (priority : Int)
    (key : Option String) (cached : Option o) :
    (s.accept now input priority key cached).2.id = s.ids.next.1 := by
  cases cached with
  | none => rfl
  | some value => rfl

theorem id_of_submits (h : m.Submits c s id x) : id = s.ids.next.1 := by
  rcases h with ⟨priority, task, _, hresult, rfl⟩
  rcases exists_submit_eq c s m.now x priority with
    ⟨cache, ⟨refusal, _, hrefused, _⟩ | ⟨_, _, haccepted, _⟩⟩
  · cases hrefused.symm.trans hresult
  · cases haccepted.symm.trans hresult
    exact id_accept _ m.now x priority _ _

theorem Consistent.task?_of_submits (h : s.Consistent) (hm : m.Submits c s id x) :
    exists task, (s.act c m).task? id = some task := by
  rcases m with ⟨now, action⟩
  rcases hm with ⟨priority, task, rfl, hresult, rfl⟩
  exact ⟨task, (h.task?_submit hresult).1⟩

theorem submits_of_record? {now : Int} {priority : Int} {r : Record i o}
    (hid : id = s.ids.next.1) (hnone : s.record? id = none)
    (hsome : (s.submit c now x priority).state.record? id = some r) :
    Moment.Submits ⟨now, .submit x priority⟩ c s id x := by
  rcases exists_submit_eq c s now x priority with
    ⟨cache, ⟨refusal, _, _, hstate⟩ | ⟨_, _, haccepted, _⟩⟩
  · have hsame : (s.submit c now x priority).state.record? id = s.record? id :=
      record?_congr (congrArg State.records hstate) id
    cases (hsame.symm.trans hsome).symm.trans hnone
  · refine ⟨priority, _, rfl, haccepted, ?_⟩
    exact (id_accept _ now x priority _ _).trans hid.symm

/-- The task was submitted in the run, with this input, while caching was enabled. -/
def Submitted (c : Coding i o) (s₀ : State p i o) (ms : List (Moment p i o)) (id : TaskId)
    (input : i) : Prop :=
  exists before m after, ms = before ++ m :: after ∧ m.Submits c (s₀.run c before) id input ∧
    (s₀.run c before).options.enableCaching = true

theorem Submitted.mem {ms : List (Moment p i o)} (h : s₀.Submitted c ms id x) :
    exists m priority, m ∈ ms ∧ m.action = .submit x priority := by
  rcases h with ⟨before, m, after, rfl, ⟨priority, task, haction, _⟩, _⟩
  exact ⟨m, priority, by simp, haction⟩

theorem Submitted.concat {ms : List (Moment p i o)} (h : s₀.Submitted c ms id x)
    (m : Moment p i o) : s₀.Submitted c (ms ++ [m]) id x := by
  rcases h with ⟨before, first, after, rfl, hsubmits, hcaching⟩
  exact ⟨before, first, after ++ [m], by simp, hsubmits, hcaching⟩

theorem Consistent.cacheKey_act (h : s.Consistent) {r : Record i o}
    (hrecord : (s.act c m).record? id = some r) :
    (exists q, s.record? id = some q ∧ r.cacheKey = q.cacheKey) ∨
      exists x, m.Submits c s id x ∧ r.cacheKey = s.cacheKey c x := by
  have hpasses := h.passes_act c m id
  rcases m with ⟨now, action⟩
  cases hwas : s.record? id with
  | none =>
      rw [hwas, hrecord] at hpasses
      cases hpasses with
      | enter x priority haction hid =>
          cases haction
          exact Or.inr ⟨x, submits_of_record? hid hwas hrecord, rfl⟩
      | answer x priority value haction hid _ =>
          cases haction
          exact Or.inr ⟨x, submits_of_record? hid hwas hrecord, rfl⟩
  | some q =>
      rw [hwas, hrecord] at hpasses
      cases hpasses with
      | move _ => exact Or.inl ⟨q, rfl, rfl⟩

/-- The key in a record is that of an input which was submitted. -/
theorem Consistent.exists_submitted (h : s₀.Consistent) (hempty : s₀.records = [])
    {ms : List (Moment p i o)} {r : Record i o}
    (hrecord : (s₀.run c ms).record? id = some r) (hkey : r.cacheKey = some key) :
    exists x, s₀.Submitted c ms id x ∧ c.key x = some key := by
  induction ms using List.reverseRecOn generalizing r with
  | nil =>
      have hnone : s₀.record? id = none := by
        unfold record?
        rw [hempty]
        rfl
      cases hnone.symm.trans hrecord
  | append_singleton ms m ih =>
      rw [run_concat] at hrecord
      rcases (h.run ms).cacheKey_act hrecord with ⟨q, hq, hsame⟩ | ⟨x, hsubmits, hsame⟩
      · rcases ih hq (hsame.symm.trans hkey) with ⟨x, hsubmitted, hx⟩
        exact ⟨x, hsubmitted.concat m, hx⟩
      · rw [hkey] at hsame
        unfold cacheKey at hsame
        split at hsame
        next hcaching => exact ⟨x, ⟨ms, m, [], rfl, hsubmits, hcaching⟩, hsame.symm⟩
        next => cases hsame

theorem Consistent.issued_of_submitted (h : s₀.Consistent) {before after : List (Moment p i o)}
    (hm : m.Submits c (s₀.run c before) id x) :
    (s₀.run c (before ++ m :: after)).Issued id := by
  induction after using List.reverseRecOn with
  | nil =>
      rcases (h.run before).task?_of_submits hm with ⟨task, htask⟩
      rw [run_concat]
      exact ((h.run before).act m).issued htask
  | append_singleton after next ih =>
      rw [← List.cons_append, ← List.append_assoc, run_concat]
      exact ih.act c next

theorem Consistent.cacheKey_of_submitted (h : s₀.Consistent) {ms : List (Moment p i o)}
    (hsubmitted : s₀.Submitted c ms id x) {r : Record i o}
    (hrecord : (s₀.run c ms).record? id = some r) : r.cacheKey = c.key x := by
  rcases hsubmitted with ⟨before, m, after, rfl, hsubmits, hcaching⟩
  induction after using List.reverseRecOn generalizing r with
  | nil =>
      have hconsistent := h.run (c := c) before
      rw [run_concat] at hrecord
      rcases hconsistent.cacheKey_act hrecord with ⟨q, hq, _⟩ | ⟨y, hy, hkey⟩
      · have hid := id_of_submits hsubmits
        subst hid
        cases hconsistent.record?_next.symm.trans hq
      · rcases hsubmits with ⟨_, _, haction, _⟩
        rcases hy with ⟨_, _, haction', _⟩
        cases haction.symm.trans haction'
        rw [hkey]
        exact if_pos hcaching
  | append_singleton after next ih =>
      have hconsistent := h.run (c := c) (before ++ m :: after)
      rw [← List.cons_append, ← List.append_assoc, run_concat] at hrecord
      rcases hconsistent.cacheKey_act hrecord with ⟨q, hq, hkey⟩ | ⟨y, hy, _⟩
      · exact hkey.trans (ih hq)
      · exact absurd (id_of_submits hy) (hconsistent.ne_next (h.issued_of_submitted hsubmits))

end State
end Scheduler
end CodeSurvey
