import CodeSurvey.Proofs.Scheduler.Index

/-!
# The books of a scheduler

The queue, the attempts in flight and the count of taken slots say again what the index
says.  Each way in which a task can move is one entry in these books.
-/

namespace CodeSurvey
namespace Scheduler

namespace Status

theorem ne_pending_of_isTerminal {status : Status} (h : status.isTerminal) :
    status ≠ .pending := by
  rintro rfl
  exact Bool.false_ne_true h

theorem ne_running_of_isTerminal {status : Status} (h : status.isTerminal) :
    status ≠ .running := by
  rintro rfl
  exact Bool.false_ne_true h

end Status

namespace Queue

theorem enter_perm (w : Waiting) (q : Queue) : (q.enter w).Perm (w :: q) := by
  induction q with
  | nil => exact List.Perm.refl _
  | cons next rest ih =>
      unfold enter
      split
      · exact List.Perm.refl _
      · exact (ih.cons next).trans (List.Perm.swap w next rest)

theorem leave_cons_self {w : Waiting} {rest : Queue}
    (h : ((w :: rest).map Waiting.id).Nodup) : Queue.leave (w :: rest) w.id = rest := by
  have hhead := (List.nodup_cons.mp h).1
  unfold leave
  rw [List.filter_cons_of_neg (by simp)]
  apply List.filter_eq_self.mpr
  intro x hx
  apply decide_eq_true
  intro heq
  exact hhead (heq ▸ List.mem_map_of_mem hx)

end Queue

/-- `queue`, `flights` and `active` agree with the index; `ids` and `next` are ahead of it. -/
structure Books (ids : IdSource) (next : Nat) (records : List (Record i o)) (queue : Queue)
    (flights : List (Attempt p i)) (active : Nat) : Prop where
  injective : Function.Injective ids.nth
  ids_nodup : (Index.ids records).Nodup
  issued : forall id, id ∈ Index.ids records -> exists n, n < ids.issued ∧ id = ⟨ids.nth n⟩
  numbers_nodup : (records.map Record.number).Nodup
  numbers_lt : forall n, n ∈ records.map Record.number -> n < next
  waiting : queue.Perm (Index.waiting records)
  running : (flights.map Attempt.id).Perm (Index.running records)
  active_eq : active = flights.length

namespace Books

variable {ids : IdSource} {next : Nat} {records : List (Record i o)} {queue : Queue}
  {flights : List (Attempt p i)} {active : Nat}

theorem empty (hids : Function.Injective ids.nth) :
    Books ids next ([] : List (Record i o)) [] ([] : List (Attempt p i)) 0 where
  injective := hids
  ids_nodup := List.nodup_nil
  issued := fun _ h => nomatch h
  numbers_nodup := List.nodup_nil
  numbers_lt := fun _ h => nomatch h
  waiting := List.Perm.refl _
  running := List.Perm.refl _
  active_eq := rfl

/-!
# Reading the books
-/

theorem queue_nodup (h : Books ids next records queue flights active) :
    (queue.map Waiting.id).Nodup := by
  have hperm := h.waiting.map Waiting.id
  have hnodup := (Index.map_id_waiting_sublist records).nodup h.ids_nodup
  exact hperm.nodup_iff.mpr hnodup

theorem flights_nodup (h : Books ids next records queue flights active) :
    (flights.map Attempt.id).Nodup :=
  h.running.nodup_iff.mpr ((Index.running_sublist records).nodup h.ids_nodup)

theorem mem_queue (h : Books ids next records queue flights active) {w : Waiting} :
    w ∈ queue ↔ exists r, r ∈ records ∧ r.task.status = .pending ∧ r.waiting = w :=
  h.waiting.mem_iff.trans Index.mem_waiting

theorem mem_flights (h : Books ids next records queue flights active) {id : TaskId} :
    id ∈ flights.map Attempt.id ↔
      exists r, r ∈ records ∧ r.task.status = .running ∧ r.task.id = id :=
  h.running.mem_iff.trans Index.mem_running

theorem active_eq_length (h : Books ids next records queue flights active) :
    active = (Index.running records).length := by
  rw [h.active_eq, ← h.running.length_eq, List.length_map]

/-!
# Moving a task
-/

theorem update (h : Books ids next records queue flights active) {id : TaskId}
    {f : Task i o -> Task i o} (hf : forall t, (f t).id = t.id) {queue' : Queue}
    {flights' : List (Attempt p i)}
    (hwaiting : queue'.Perm (Index.waiting (Index.update records id f)))
    (hrunning : (flights'.map Attempt.id).Perm (Index.running (Index.update records id f))) :
    Books ids next (Index.update records id f) queue' flights' flights'.length where
  injective := h.injective
  ids_nodup := by
    rw [Index.ids_update hf]
    exact h.ids_nodup
  issued := by
    rw [Index.ids_update hf]
    exact h.issued
  numbers_nodup := by
    rw [Index.numbers_update]
    exact h.numbers_nodup
  numbers_lt := by
    rw [Index.numbers_update]
    exact h.numbers_lt
  waiting := hwaiting
  running := hrunning
  active_eq := rfl

theorem leave_perm (h : Books ids next records queue flights active) {id : TaskId}
    {f : Task i o -> Task i o} (hf : forall t, (f t).status ≠ .pending) :
    (queue.leave id).Perm (Index.waiting (Index.update records id f)) := by
  unfold Index.waiting
  rw [Index.having_update_of_ne hf, ← Index.leave_waiting]
  exact h.waiting.filter _

theorem start (h : Books ids next records queue flights active) {r : Record i o}
    (hr : r ∈ records) (hstatus : r.task.status = .pending) {f : Task i o -> Task i o}
    (hid : forall t, (f t).id = t.id) (hf : forall t, (f t).status = .running)
    {a : Attempt p i} (ha : a.id = r.task.id) :
    Books ids next (Index.update records r.task.id f) (queue.leave r.task.id)
      (flights ++ [a]) (active + 1) := by
  have hpending : forall t, (f t).status ≠ .pending := by
    intro t
    rw [hf t]
    exact Status.noConfusion
  have hne : r.task.status ≠ .running := hstatus ▸ Status.noConfusion
  have hactive : active + 1 = (flights ++ [a]).length := by
    rw [List.length_append, h.active_eq]
    rfl
  rw [hactive]
  apply h.update hid
  · exact h.leave_perm hpending
  · have hrunning := (Index.having_update_perm h.ids_nodup hr (hf r.task)).map
      fun q => q.task.id
    rw [Index.others_having_of_ne h.ids_nodup hr hne, List.map_cons, hid] at hrunning
    rw [List.map_append, List.map_singleton, ha]
    exact (List.perm_append_singleton _ _).trans ((h.running.cons _).trans hrunning.symm)

theorem endWaiting (h : Books ids next records queue flights active) {r : Record i o}
    (hr : r ∈ records) (hstatus : r.task.status = .pending) {f : Task i o -> Task i o}
    (hid : forall t, (f t).id = t.id) (hf : forall t, (f t).status.isTerminal) :
    Books ids next (Index.update records r.task.id f) (queue.leave r.task.id) flights
      active := by
  have hpending : forall t, (f t).status ≠ .pending :=
    fun t => Status.ne_pending_of_isTerminal (hf t)
  have hrunning : forall t, (f t).status ≠ .running :=
    fun t => Status.ne_running_of_isTerminal (hf t)
  have hne : r.task.status ≠ .running := hstatus ▸ Status.noConfusion
  rw [h.active_eq]
  apply h.update hid
  · exact h.leave_perm hpending
  · unfold Index.running
    rw [Index.having_update_of_ne hrunning, Index.others_having_of_ne h.ids_nodup hr hne]
    exact h.running

/-!
# Giving back a slot
-/

theorem map_id_filter (flights : List (Attempt p i)) (id : TaskId) :
    (flights.filter fun a => a.id ≠ id).map Attempt.id =
      (flights.map Attempt.id).filter (· ≠ id) := by
  rw [List.filter_map]
  rfl

theorem release_perm (h : Books ids next records queue flights active) {id : TaskId}
    {f : Task i o -> Task i o} (hf : forall t, (f t).status ≠ .running) :
    ((flights.filter fun a => a.id ≠ id).map Attempt.id).Perm
      (Index.running (Index.update records id f)) := by
  unfold Index.running
  rw [Index.having_update_of_ne hf, ← Index.filter_running, map_id_filter]
  exact h.running.filter _

theorem active_sub_one (h : Books ids next records queue flights active) {r : Record i o}
    (hr : r ∈ records) (hstatus : r.task.status = .running) :
    active = (flights.filter fun a => a.id ≠ r.task.id).length + 1 := by
  have hmem := h.mem_flights.mpr ⟨r, hr, hstatus, rfl⟩
  have herase := h.flights_nodup.erase_eq_filter r.task.id
  have hlength := List.length_erase_of_mem hmem
  have hpos := List.length_pos_of_mem hmem
  have hfilter : (flights.filter fun a => a.id ≠ r.task.id).length =
      ((flights.map Attempt.id).erase r.task.id).length := by
    rw [herase, ← List.length_map Attempt.id, map_id_filter]
    congr 1
    apply List.filter_congr
    intro x _
    rw [decide_not]
    rfl
  rw [hfilter, hlength, h.active_eq, List.length_map]
  rw [List.length_map] at hpos
  omega

theorem endRunning (h : Books ids next records queue flights active) {r : Record i o}
    (hr : r ∈ records) (hstatus : r.task.status = .running) {f : Task i o -> Task i o}
    (hid : forall t, (f t).id = t.id) (hf : forall t, (f t).status.isTerminal) :
    Books ids next (Index.update records r.task.id f) queue
      (flights.filter fun a => a.id ≠ r.task.id) (active - 1) := by
  have hpending : forall t, (f t).status ≠ .pending :=
    fun t => Status.ne_pending_of_isTerminal (hf t)
  have hrunning : forall t, (f t).status ≠ .running :=
    fun t => Status.ne_running_of_isTerminal (hf t)
  have hne : r.task.status ≠ .pending := hstatus ▸ Status.noConfusion
  rw [h.active_sub_one hr hstatus, Nat.add_sub_cancel]
  apply h.update hid
  · unfold Index.waiting
    rw [Index.having_update_of_ne hpending, Index.others_having_of_ne h.ids_nodup hr hne]
    exact h.waiting
  · exact h.release_perm hrunning

/-- A task that ran has to wait again, in the place of its submission. -/
theorem again (h : Books ids next records queue flights active) {r : Record i o}
    (hr : r ∈ records) (hstatus : r.task.status = .running) {f : Task i o -> Task i o}
    (hid : forall t, (f t).id = t.id) (hpriority : forall t, (f t).priority = t.priority)
    (hf : forall t, (f t).status = .pending) :
    Books ids next (Index.update records r.task.id f) (queue.enter r.waiting)
      (flights.filter fun a => a.id ≠ r.task.id) (active - 1) := by
  have hrunning : forall t, (f t).status ≠ .running := by
    intro t
    rw [hf t]
    exact Status.noConfusion
  have hne : r.task.status ≠ .pending := hstatus ▸ Status.noConfusion
  have hplace : ({ r with task := f r.task } : Record i o).waiting = r.waiting := by
    unfold Record.waiting
    rw [hid, hpriority]
  rw [h.active_sub_one hr hstatus, Nat.add_sub_cancel]
  apply h.update hid
  · have hwaiting := (Index.having_update_perm h.ids_nodup hr (hf r.task)).map
      Record.waiting
    rw [Index.others_having_of_ne h.ids_nodup hr hne, List.map_cons, hplace] at hwaiting
    exact (Queue.enter_perm _ _).trans ((h.waiting.cons _).trans hwaiting.symm)
  · exact h.release_perm hrunning

/-!
# New records, and old ones
-/

theorem next_not_mem (h : Books ids next records queue flights active) :
    ids.next.1 ∉ Index.ids records := by
  intro hmem
  rcases h.issued _ hmem with ⟨n, hn, heq⟩
  have hnth := congrArg TaskId.text heq
  exact absurd (h.injective hnth) (Nat.ne_of_gt hn)

theorem add (h : Books ids next records queue flights active) {r : Record i o}
    (hid : r.task.id = ids.next.1) (hnumber : r.number = next) {queue' : Queue}
    (hqueue : queue'.Perm (queue ++ Index.waiting [r])) (hr : r.task.status ≠ .running) :
    Books ids.next.2 (next + 1) (records ++ [r]) queue' flights active where
  injective := h.injective
  ids_nodup := Index.nodup_ids_append h.ids_nodup (hid ▸ h.next_not_mem)
  issued := by
    intro x hx
    rw [Index.ids_append, List.mem_append] at hx
    cases hx with
    | inl hx =>
        rcases h.issued x hx with ⟨n, hn, heq⟩
        exact ⟨n, Nat.lt_succ_of_lt hn, heq⟩
    | inr hx =>
        exact ⟨ids.issued, Nat.lt_succ_self _, (List.mem_singleton.mp hx).trans hid⟩
  numbers_nodup := by
    have hnot : r.number ∉ records.map Record.number :=
      fun hmem => Nat.lt_irrefl next (hnumber ▸ h.numbers_lt r.number hmem)
    rw [List.map_append]
    exact (List.perm_append_singleton _ _).nodup_iff.mpr
      (List.nodup_cons.mpr ⟨hnot, h.numbers_nodup⟩)
  numbers_lt := by
    intro x hx
    rw [List.map_append, List.mem_append] at hx
    cases hx with
    | inl hx => exact Nat.lt_succ_of_lt (h.numbers_lt x hx)
    | inr hx =>
        rw [List.mem_singleton.mp hx, hnumber]
        exact Nat.lt_succ_self next
  waiting := by
    rw [Index.waiting_append]
    exact hqueue.trans (h.waiting.append_right _)
  running := by
    have hnone : Index.running [r] = [] := by
      simp [Index.running, Index.having, hr]
    rw [Index.running_append, hnone, List.append_nil]
    exact h.running
  active_eq := h.active_eq

theorem clear (h : Books ids next records queue flights active) :
    Books ids next (records.filter fun r => !r.task.status.isTerminal) queue flights
      active where
  injective := h.injective
  ids_nodup := (List.filter_sublist.map _).nodup h.ids_nodup
  issued := fun id hid => h.issued id ((List.filter_sublist.map _).subset hid)
  numbers_nodup := (List.filter_sublist.map _).nodup h.numbers_nodup
  numbers_lt := fun n hn => h.numbers_lt n ((List.filter_sublist.map _).subset hn)
  waiting := by
    unfold Index.waiting
    rw [Index.having_filter_not_isTerminal rfl]
    exact h.waiting
  running := by
    unfold Index.running
    rw [Index.having_filter_not_isTerminal rfl]
    exact h.running
  active_eq := h.active_eq

end Books
end Scheduler
end CodeSurvey
