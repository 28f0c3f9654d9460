import CodeSurvey.Scheduler.State
import Mathlib.Data.List.Nodup

/-!
# The index of a scheduler

The index holds one record for every task that was not cleared.  From it one can read
what the queue has to hold and which attempts have to be in flight.
-/

namespace CodeSurvey
namespace Scheduler

namespace Record

def waiting (r : Record i o) : Waiting :=
  { id := r.task.id, priority := r.task.priority, number := r.number }

end Record

namespace Index

variable {records : List (Record i o)}

def update (records : List (Record i o)) (id : TaskId) (f : Task i o -> Task i o) :
    List (Record i o) :=
  records.map fun r => if r.task.id = id then { r with task := f r.task } else r

def ids (records : List (Record i o)) : List TaskId :=
  records.map fun r => r.task.id

def having (status : Status) (records : List (Record i o)) : List (Record i o) :=
  records.filter fun r => r.task.status = status

def waiting (records : List (Record i o)) : List Waiting :=
  (having .pending records).map Record.waiting

def running (records : List (Record i o)) : List TaskId :=
  (having .running records).map fun r => r.task.id

theorem mem_having {status : Status} {r : Record i o} :
    r ∈ having status records ↔ r ∈ records ∧ r.task.status = status := by
  unfold having
  rw [List.mem_filter, decide_eq_true_iff]

theorem mem_waiting {w : Waiting} :
    w ∈ waiting records ↔ exists r, r ∈ records ∧ r.task.status = .pending ∧ r.waiting = w := by
  unfold waiting
  simp only [List.mem_map, mem_having, and_assoc]

theorem mem_running {id : TaskId} :
    id ∈ running records ↔ exists r, r ∈ records ∧ r.task.status = .running ∧ r.task.id = id := by
  unfold running
  simp only [List.mem_map, mem_having, and_assoc]

theorem map_id_waiting_sublist (records : List (Record i o)) :
    ((waiting records).map Waiting.id).Sublist (ids records) := by
  unfold waiting ids
  rw [List.map_map]
  exact List.filter_sublist.map fun r : Record i o => r.task.id

theorem running_sublist (records : List (Record i o)) :
    (running records).Sublist (ids records) :=
  List.filter_sublist.map fun r : Record i o => r.task.id

/-!
# Finding a record
-/

theorem eq_of_id_eq (hnodup : (ids records).Nodup) {r q : Record i o} (hr : r ∈ records)
    (hq : q ∈ records) (hid : r.task.id = q.task.id) : r = q :=
  List.inj_on_of_nodup_map hnodup hr hq hid

theorem find?_eq_some (hnodup : (ids records).Nodup) {r : Record i o} {id : TaskId} :
    (records.find? fun r => r.task.id = id) = some r ↔ r ∈ records ∧ r.task.id = id := by
  constructor
  · intro h
    have hid := List.find?_some h
    exact ⟨List.mem_of_find?_eq_some h, of_decide_eq_true hid⟩
  · rintro ⟨hr, hid⟩
    cases hfind : records.find? fun r => r.task.id = id with
    | none =>
        have hne := List.find?_eq_none.mp hfind r hr
        exact absurd (decide_eq_true hid) hne
    | some q =>
        have hq := List.mem_of_find?_eq_some hfind
        have hqid := List.find?_some hfind
        rw [eq_of_id_eq hnodup hr hq (hid.trans (of_decide_eq_true hqid).symm)]

/-!
# Changing a task
-/

@[simp] theorem ids_append (records more : List (Record i o)) :
    ids (records ++ more) = ids records ++ ids more :=
  List.map_append

theorem nodup_ids_append (hnodup : (ids records).Nodup) {r : Record i o}
    (hr : r.task.id ∉ ids records) : (ids (records ++ [r])).Nodup := by
  rw [ids_append]
  exact (List.perm_append_singleton _ _).nodup_iff.mpr (List.nodup_cons.mpr ⟨hr, hnodup⟩)

theorem mem_update {id : TaskId} {f : Task i o -> Task i o} {q : Record i o} :
    q ∈ update records id f ↔
      exists r, r ∈ records ∧ q = if r.task.id = id then { r with task := f r.task } else r := by
  unfold update
  rw [List.mem_map]
  constructor
  · rintro ⟨r, hr, rfl⟩
    exact ⟨r, hr, rfl⟩
  · rintro ⟨r, hr, rfl⟩
    exact ⟨r, hr, rfl⟩

theorem ids_update {id : TaskId} {f : Task i o -> Task i o} (hf : forall t, (f t).id = t.id) :
    ids (update records id f) = ids records := by
  unfold ids update
  rw [List.map_map]
  apply List.map_congr_left
  intro r _
  simp only [Function.comp_apply]
  split
  · exact hf r.task
  · rfl

theorem numbers_update (id : TaskId) (f : Task i o -> Task i o) :
    (update records id f).map Record.number = records.map Record.number := by
  unfold update
  rw [List.map_map]
  apply List.map_congr_left
  intro r _
  simp only [Function.comp_apply]
  split <;> rfl

theorem update_eq_self {id : TaskId} {f : Task i o -> Task i o} (h : id ∉ ids records) :
    update records id f = records := by
  induction records with
  | nil => rfl
  | cons r records ih =>
      have hhead : r.task.id ≠ id := fun heq => h (heq ▸ List.mem_cons_self)
      have htail : id ∉ ids records := fun hmem => h (List.mem_cons_of_mem _ hmem)
      show (if r.task.id = id then _ else r) :: update records id f = r :: records
      rw [if_neg hhead, ih htail]

/-- The index around a record, and what becomes of it when the task is changed. -/
theorem exists_update_eq (hnodup : (ids records).Nodup) {r : Record i o}
    (hr : r ∈ records) :
    exists before after, records = before ++ r :: after ∧
      r.task.id ∉ ids before ∧ r.task.id ∉ ids after ∧
      forall f, update records r.task.id f = before ++ { r with task := f r.task } :: after := by
  rcases List.append_of_mem hr with ⟨before, after, rfl⟩
  have hparts : (ids before ++ r.task.id :: ids after).Nodup := by
    rw [ids_append] at hnodup
    exact hnodup
  have hcons := List.nodup_cons.mp (List.perm_middle.nodup_iff.mp hparts)
  have hbefore : r.task.id ∉ ids before :=
    fun hmem => hcons.1 (List.mem_append_left _ hmem)
  have hafter : r.task.id ∉ ids after :=
    fun hmem => hcons.1 (List.mem_append_right _ hmem)
  refine ⟨before, after, rfl, hbefore, hafter, ?_⟩
  intro f
  have happend : update (before ++ r :: after) r.task.id f =
      update before r.task.id f ++ update (r :: after) r.task.id f := List.map_append
  rw [happend, update_eq_self hbefore]
  show before ++ (if r.task.id = r.task.id then _ else r) :: update after r.task.id f = _
  rw [if_pos rfl, update_eq_self hafter]

/-!
# The records with a status

The list of the records with a status only changes by the record whose status changes.
-/

def others (id : TaskId) (records : List (Record i o)) : List (Record i o) :=
  records.filter fun r => r.task.id ≠ id

theorem others_eq_self {id : TaskId} (h : id ∉ ids records) : others id records = records := by
  apply List.filter_eq_self.mpr
  intro r hr
  apply decide_eq_true
  intro heq
  exact h (heq ▸ List.mem_map_of_mem hr)

theorem having_append (status : Status) (records more : List (Record i o)) :
    having status (records ++ more) = having status records ++ having status more :=
  List.filter_append _ _

theorem having_update_of_ne {status : Status} {id : TaskId} {f : Task i o -> Task i o}
    (hf : forall t, (f t).status ≠ status) :
    having status (update records id f) = others id (having status records) := by
  unfold having update others
  induction records with
  | nil => rfl
  | cons r records ih =>
      rw [List.map_cons, List.filter_cons, List.filter_cons]
      by_cases hid : r.task.id = id
      · by_cases hstatus : r.task.status = status
        · simpa [hid, hstatus, hf] using ih
        · simpa [hid, hstatus, hf] using ih
      · by_cases hstatus : r.task.status = status
        · simpa [hid, hstatus] using ih
        · simpa [hid, hstatus] using ih

theorem others_having_of_ne (hnodup : (ids records).Nodup) {r : Record i o}
    (hr : r ∈ records) {status : Status} (hstatus : r.task.status ≠ status) :
    others r.task.id (having status records) = having status records := by
  apply others_eq_self
  intro hmem
  rcases List.mem_map.mp hmem with ⟨q, hq, hid⟩
  have hhaving := mem_having.mp hq
  exact hstatus (eq_of_id_eq hnodup hhaving.1 hr hid ▸ hhaving.2)

theorem having_update_perm (hnodup : (ids records).Nodup) {r : Record i o}
    (hr : r ∈ records) {status : Status} {f : Task i o -> Task i o}
    (hf : (f r.task).status = status) :
    (having status (update records r.task.id f)).Perm
      ({ r with task := f r.task } :: others r.task.id (having status records)) := by
  rcases exists_update_eq hnodup hr with ⟨before, after, heq, hbefore, hafter, hupdate⟩
  have hself : having status [({ r with task := f r.task } : Record i o)] =
      [{ r with task := f r.task }] :=
    List.filter_cons_of_pos (decide_eq_true hf)
  have hrest : others r.task.id (having status records) =
      having status (before ++ after) := by
    have hothers : others r.task.id records = before ++ after := by
      unfold others
      rw [heq, List.filter_append, List.filter_cons_of_neg (by simp)]
      exact congrArg₂ _ (others_eq_self hbefore) (others_eq_self hafter)
    rw [← hothers]
    exact List.filter_comm _ _ _
  rw [hupdate, hrest, ← List.singleton_append, having_append, having_append, hself,
    having_append]
  exact List.perm_middle

theorem having_filter_not_isTerminal {status : Status} (hstatus : status.isTerminal = false)
    (records : List (Record i o)) :
    having status (records.filter fun r => !r.task.status.isTerminal) =
      having status records := by
  unfold having
  rw [List.filter_filter]
  apply List.filter_congr
  intro r _
  by_cases heq : r.task.status = status
  · rw [heq, hstatus]
    exact Bool.and_true _
  · rw [decide_eq_false heq]
    exact Bool.false_and _

theorem waiting_append (records more : List (Record i o)) :
    waiting (records ++ more) = waiting records ++ waiting more := by
  unfold waiting
  rw [having_append, List.map_append]

theorem running_append (records more : List (Record i o)) :
    running (records ++ more) = running records ++ running more := by
  unfold running
  rw [having_append, List.map_append]

theorem leave_waiting (records : List (Record i o)) (id : TaskId) :
    Queue.leave (waiting records) id =
      (others id (having .pending records)).map Record.waiting := by
  unfold waiting Queue.leave
  rw [List.filter_map]
  rfl

theorem filter_running (records : List (Record i o)) (id : TaskId) :
    (running records).filter (· ≠ id) =
      (others id (having .running records)).map fun r => r.task.id := by
  unfold running
  rw [List.filter_map]
  rfl

end Index
end Scheduler
end CodeSurvey
