import CodeSurvey.Proofs.Scheduler.Hosts
import CodeSurvey.Proofs.Scheduler.RecordChanges

/-!
# Tasks to which nothing happens any more

An id is given out once.  So a task that came to its end, or whose record is gone, stays
that way; and a record that is gone was cleared, after its task had come to its end.
-/

namespace CodeSurvey
namespace Scheduler
namespace State

variable {s t u : State p i o} {c : Coding i o} {m : Moment p i o} {id : TaskId}

/-!
# Ids
-/

def Issued (s : State p i o) (id : TaskId) : Prop :=
  exists n, n < s.ids.issued ∧ id = ⟨s.ids.nth n⟩

theorem Consistent.issued (h : s.Consistent) {task : Task i o} (htask : s.task? id = some task) :
    s.Issued id := by
  rcases Option.map_eq_some_iff.mp htask with ⟨r, hrecord, _⟩
  rcases (record?_eq_some h.ids_nodup).mp hrecord with ⟨hr, rfl⟩
  exact Books.issued h r.task.id (List.mem_map_of_mem hr)

theorem Consistent.ne_next (h : s.Consistent) (hissued : s.Issued id) : id ≠ s.ids.next.1 := by
  rcases hissued with ⟨n, hn, rfl⟩
  intro heq
  exact Nat.ne_of_lt hn (h.injective (congrArg TaskId.text heq))

theorem ids_submit (c : Coding i o) (s : State p i o) (now : Int) (input : i) (priority : Int) :
    (s.submit c now input priority).state.ids = s.ids ∨
      (s.submit c now input priority).state.ids = s.ids.next.2 := by
  rcases exists_submit_eq c s now input priority with
    ⟨cache, ⟨_, _, _, hstate⟩ | ⟨_, _, _, hstate⟩⟩
  · rw [hstate]
    exact Or.inl rfl
  · rw [hstate]
    unfold accept
    simp only
    split
    · exact Or.inr rfl
    · exact Or.inr rfl

theorem ids_act (c : Coding i o) (s : State p i o) (m : Moment p i o) :
    (s.act c m).ids = s.ids ∨ (s.act c m).ids = s.ids.next.2 := by
  cases hmoves : m.action.movesTasks with
  | true =>
      rcases exists_act_eq c s hmoves with ⟨_, _, _, _, _, _, hact⟩
      rw [hact]
      exact Or.inl rfl
  | false =>
      rcases m with ⟨now, action⟩
      cases action with
      | submit input priority => exact ids_submit c s now input priority
      | beginShutdown =>
          have hact : s.act c ⟨now, .beginShutdown⟩ = _ := s.beginShutdown_eq
          rw [hact]
          exact Or.inl rfl
      | finish place found elapsed =>
          left
          unfold State.act
          simp only
          split
          next a _ =>
            rcases s.exists_finish_eq now a.id (a.outcome found) elapsed with
              ⟨_, _, _, _, _, _, _, _, _, hfinish⟩
            rw [hfinish]
          next => rfl
      | store place =>
          rcases exists_act_store_eq c s now place with ⟨_, _, hact⟩
          rw [hact]
          exact Or.inl rfl
      | pause => exact Or.inl rfl
      | resume => exact Or.inl rfl
      | configure options => exact Or.inl rfl
      | setProcessor processor => exact Or.inl rfl
      | clearCache => exact Or.inl rfl
      | closeRetries => exact Or.inl rfl
      | _ => cases hmoves

theorem Issued.act (h : s.Issued id) (c : Coding i o) (m : Moment p i o) :
    (s.act c m).Issued id := by
  rcases h with ⟨n, hn, hid⟩
  unfold Issued
  cases ids_act c s m with
  | inl hids =>
      rw [hids]
      exact ⟨n, hn, hid⟩
  | inr hids =>
      rw [hids]
      exact ⟨n, Nat.lt_succ_of_lt hn, hid⟩

theorem Issued.follows (h : s.Issued id) (hst : Follows c s t) : t.Issued id := by
  rcases hst with ⟨ms, rfl⟩
  exact run_induction (motive := fun s => s.Issued id) (fun _ m h => h.act c m) h ms

/-!
# The end of a task
-/

theorem Moves.input_eq {task task' : Task i o} (h : Moves s m task task') :
    task'.input = task.input := by
  cases h <;> rfl

theorem Moves.eq_of_isTerminal {task task' : Task i o} (h : Moves s m task task')
    (hterminal : task.status.isTerminal = true) : task' = task := by
  have hpending := Status.ne_pending_of_isTerminal hterminal
  have hrunning := Status.ne_running_of_isTerminal hterminal
  cases h with
  | stay => rfl
  | start _ hstatus => exact absurd hstatus hpending
  | cancel _ hstatus => exact absurd hstatus hpending
  | succeed _ hstatus => exact absurd hstatus hrunning
  | retry _ hstatus _ _ => exact absurd hstatus hrunning
  | giveUp _ hstatus _ _ => exact absurd hstatus hrunning
  | fail _ hstatus _ => exact absurd hstatus hrunning

theorem Consistent.task?_act (h : s.Consistent) (c : Coding i o) (m : Moment p i o)
    (id : TaskId) :
    (s.task? id = none ∧ ((s.act c m).task? id = none ∨ id = s.ids.next.1)) ∨
      (exists task task', s.task? id = some task ∧ (s.act c m).task? id = some task' ∧
        Moves s m task task') ∨
      exists task, s.task? id = some task ∧ task.status.isTerminal = true ∧
        m.action = .clearFinished ∧ (s.act c m).task? id = none := by
  have hpasses := h.passes_act c m id
  unfold task?
  generalize s.record? id = was at hpasses ⊢
  generalize (s.act c m).record? id = becomes at hpasses ⊢
  cases hpasses with
  | absent => exact Or.inl ⟨rfl, Or.inl rfl⟩
  | enter _ _ _ hid => exact Or.inl ⟨rfl, Or.inr hid⟩
  | answer _ _ _ _ hid _ => exact Or.inl ⟨rfl, Or.inr hid⟩
  | move hmoves => exact Or.inr (Or.inl ⟨_, _, rfl, rfl, hmoves⟩)
  | clear haction hterminal => exact Or.inr (Or.inr ⟨_, rfl, hterminal, haction, rfl⟩)

/-- The task came to its end, and maybe its record is gone. -/
structure Settled (s : State p i o) (id : TaskId) : Prop where
  issued : s.Issued id
  ended : forall task, s.task? id = some task -> task.status.isTerminal = true

theorem Consistent.settled (h : s.Consistent) {task : Task i o}
    (htask : s.task? id = some task) (hterminal : task.status.isTerminal = true) :
    s.Settled id where
  issued := h.issued htask
  ended := by
    intro task' htask'
    rw [htask] at htask'
    cases htask'
    exact hterminal

theorem Issued.settled (h : s.Issued id) (hgone : s.task? id = none) : s.Settled id where
  issued := h
  ended := by
    intro task htask
    rw [hgone] at htask
    cases htask

theorem Settled.act (h : s.Settled id) (hs : s.Consistent) (m : Moment p i o) :
    (s.act c m).Settled id where
  issued := h.issued.act c m
  ended := by
    intro task htask
    rcases hs.task?_act c m id with ⟨_, hnone | hnext⟩ | ⟨was, becomes, hwas, hbecomes, hmoves⟩ |
      ⟨_, _, _, _, hnone⟩
    · rw [hnone] at htask
      cases htask
    · exact absurd hnext (hs.ne_next h.issued)
    · rw [hbecomes] at htask
      cases htask
      have hterminal := h.ended was hwas
      rw [hmoves.eq_of_isTerminal hterminal]
      exact hterminal
    · rw [hnone] at htask
      cases htask

theorem Settled.follows (h : s.Settled id) (hs : s.Consistent) (hst : Follows c s t) :
    t.Settled id := by
  rcases hst with ⟨ms, rfl⟩
  exact (run_induction (motive := fun s => s.Consistent ∧ s.Settled id)
    (fun _ m h => ⟨h.1.act m, h.2.act h.1 m⟩) ⟨hs, h⟩ ms).2

theorem Consistent.gone_act (h : s.Consistent) (hissued : s.Issued id)
    (hgone : s.task? id = none) (m : Moment p i o) : (s.act c m).task? id = none := by
  rcases h.task?_act c m id with ⟨_, hnone | hnext⟩ | ⟨task, _, hwas, _, _⟩ | ⟨_, _, _, _, hnone⟩
  · exact hnone
  · exact absurd hnext (h.ne_next hissued)
  · rw [hgone] at hwas
    cases hwas
  · exact hnone

theorem Consistent.gone_follows (h : s.Consistent) (hissued : s.Issued id)
    (hgone : s.task? id = none) (hst : Follows c s t) : t.task? id = none := by
  rcases hst with ⟨ms, rfl⟩
  exact (run_induction
    (motive := fun s => s.Consistent ∧ s.Issued id ∧ s.task? id = none)
    (fun _ m h => ⟨h.1.act m, h.2.1.act c m, h.1.gone_act h.2.1 h.2.2 m⟩)
    ⟨h, hissued, hgone⟩ ms).2.2

/-!
# Clearing
-/

/-- Between two states the task with an id and an input had come to its end, and then its
record was cleared. -/
def Clears (c : Coding i o) (s t : State p i o) (id : TaskId) (input : i) : Prop :=
  exists u task now, Follows c s u ∧ u.task? id = some task ∧ task.input = input ∧
    task.status.isTerminal = true ∧ (u.act c ⟨now, .clearFinished⟩).task? id = none ∧
    Follows c (u.act c ⟨now, .clearFinished⟩) t

theorem Clears.after {input : i} (h : Clears c t u id input) (hst : Follows c s t) :
    Clears c s u id input := by
  rcases h with ⟨v, task, now, hv, hrest⟩
  exact ⟨v, task, now, hst.trans hv, hrest⟩

/-- A task stays in the index, with its input, until it is cleared. -/
theorem Consistent.kept_or_cleared (hs : s.Consistent) {task : Task i o}
    (htask : s.task? id = some task) (hst : Follows c s t) :
    (exists task', t.task? id = some task' ∧ task'.input = task.input) ∨
      t.task? id = none ∧ Clears c s t id task.input := by
  -- On the actions from the first one, since a record that one of them clears stays away.
  rcases hst with ⟨ms, rfl⟩
  induction ms generalizing s task with
  | nil => exact Or.inl ⟨task, htask, rfl⟩
  | cons m ms ih =>
      rcases hs.task?_act c m id with ⟨hnone, _⟩ | ⟨was, becomes, hwas, hbecomes, hmoves⟩ |
        ⟨ended, hwas, hterminal, haction, hgone⟩
      · rw [hnone] at htask
        cases htask
      · rw [hwas] at htask
        cases htask
        have hinput := hmoves.input_eq
        cases ih (hs.act m) hbecomes with
        | inl hkept =>
            rcases hkept with ⟨task', htask', hinput'⟩
            exact Or.inl ⟨task', htask', hinput'.trans hinput⟩
        | inr hcleared =>
            rw [hinput] at hcleared
            exact Or.inr ⟨hcleared.1, hcleared.2.after (follows_act c s m)⟩
      · rw [hwas] at htask
        cases htask
        rcases m with ⟨now, action⟩
        cases haction
        have hissued := (hs.issued hwas).act c ⟨now, .clearFinished⟩
        have hthen : Follows c (s.act c ⟨now, .clearFinished⟩)
            (s.run c (⟨now, .clearFinished⟩ :: ms)) := ⟨ms, rfl⟩
        refine Or.inr ⟨(hs.act _).gone_follows hissued hgone hthen, ?_⟩
        exact ⟨s, task, now, Follows.refl c s, hwas, rfl, hterminal, hgone, hthen⟩

end State
end Scheduler
end CodeSurvey
