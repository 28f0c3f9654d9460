import CodeSurvey.Proofs.Scheduler.Action
import CodeSurvey.Proofs.Scheduler.IndexMoves

/-!
# The scheduler keeps its books

Every action leaves the queue, the index, the attempts in flight and the count of taken
slots in agreement, as long as no id is given out twice.
-/

namespace CodeSurvey
namespace Scheduler
namespace State

variable {s : State p i o} {c : Coding i o} {now : Int}

def Consistent (s : State p i o) : Prop :=
  Books s.ids s.nextNumber s.records s.queue s.inFlight s.active

theorem record?_eq_some (hnodup : (Index.ids s.records).Nodup) {id : TaskId}
    {r : Record i o} : s.record? id = some r ↔ r ∈ s.records ∧ r.task.id = id :=
  Index.find?_eq_some hnodup

theorem pending?_eq_some (hnodup : (Index.ids s.records).Nodup) {id : TaskId}
    {r : Record i o} :
    s.pending? id = some r ↔ r ∈ s.records ∧ r.task.id = id ∧ r.task.status = .pending := by
  unfold pending?
  rw [Option.filter_eq_some_iff, record?_eq_some hnodup, decide_eq_true_iff, and_assoc]

theorem Consistent.exists_running (h : s.Consistent) {a : Attempt p i}
    (ha : a ∈ s.inFlight) :
    exists r, s.record? a.id = some r ∧ r ∈ s.records ∧ r.task.id = a.id ∧
      r.task.status = .running := by
  rcases h.mem_flights.mp (List.mem_map_of_mem ha) with ⟨r, hr, hstatus, hid⟩
  exact ⟨r, (record?_eq_some h.ids_nodup).mpr ⟨hr, hid⟩, hr, hid, hstatus⟩

theorem consistent_new (options : Options) (cacheOptions : Cache.Options) {ids : IdSource}
    (hids : Function.Injective ids.nth) :
    ((new options cacheOptions ids).state : State p i o).Consistent :=
  Books.empty hids

/-!
# Submitting
-/

theorem Consistent.lookUp (h : s.Consistent) (now : Int) (key : Option String) :
    (s.lookUp now key).state.Consistent := by
  cases key with
  | none => exact h
  | some key => exact h

theorem Consistent.accept (h : s.Consistent) (input : i) (priority : Int)
    (key : Option String) (cached : Option o) :
    (s.accept now input priority key cached).1.Consistent := by
  cases cached with
  | none =>
      apply Books.add h rfl rfl
      · exact (Queue.enter_perm _ _).trans (List.perm_append_singleton _ _).symm
      · exact Status.noConfusion
  | some value =>
      apply Books.add h rfl rfl
      · rw [show Index.waiting _ = [] from rfl, List.append_nil]
        exact List.Perm.refl _
      · exact Status.noConfusion

theorem Consistent.submit (h : s.Consistent) (input : i) (priority : Int) :
    (s.submit c now input priority).state.Consistent := by
  have hfound := h.lookUp now (s.cacheKey c input)
  unfold State.submit
  split
  · exact h
  · simp only
    split
    · exact hfound
    · exact hfound.accept _ _ _ _

/-!
# Starting
-/

/-- Tasks are started in the order of the queue, and none of them is passed over. -/
theorem startFrom_spec {processor : p} (q : Queue) {s : State p i o}
    (h : Books s.ids s.nextNumber s.records q s.inFlight s.active) :
    (startFrom now processor q s).1.Consistent ∧
      exists front, q = front ++ (startFrom now processor q s).1.queue ∧
        (startFrom now processor q s).2.map Attempt.id = front.map Waiting.id := by
  -- Until the end the books are kept with the rest of the queue, not with that of the state.
  induction q generalizing s with
  | nil => exact ⟨h, [], rfl, rfl⟩
  | cons next rest ih =>
      unfold startFrom
      split
      · rcases h.mem_queue.mp List.mem_cons_self with ⟨r, hr, hstatus, rfl⟩
        have hpending : s.pending? r.waiting.id = some r :=
          (pending?_eq_some h.ids_nodup).mpr ⟨hr, rfl, hstatus⟩
        have hstarted := h.start hr hstatus (f := (started · now)) (fun _ => rfl)
          (fun _ => rfl) (a := (s.startTask now processor r.task).2) rfl
        have hrest : Queue.leave (r.waiting :: rest) r.task.id = rest :=
          Queue.leave_cons_self h.queue_nodup
        rw [hrest] at hstarted
        rcases ih (s := (s.startTask now processor r.task).1) hstarted with
          ⟨hafter, front, hfront, hids⟩
        rw [hpending]
        exact ⟨hafter, r.waiting :: front, congrArg _ hfront, congrArg _ hids⟩
      · exact ⟨h, [], rfl, rfl⟩

theorem Consistent.dispatch (h : s.Consistent) : (s.dispatch now).1.Consistent := by
  unfold State.dispatch
  split
  · exact (startFrom_spec s.queue h).1
  · exact h

/-!
# Cancelling
-/

theorem markCancelled_of_eq_none {id : TaskId} (h : s.pending? id = none) (now : Int) :
    s.markCancelled now id = (s, false) := by
  unfold markCancelled
  rw [h]

theorem markCancelled_of_eq_some {id : TaskId} {r : Record i o} (h : s.pending? id = some r)
    (now : Int) :
    s.markCancelled now id =
      ((s.updateTask id (cancelled · now)).emit (.cancelled id), true) := by
  unfold markCancelled
  rw [h]

theorem books_markCancelled {q : Queue}
    (h : Books s.ids s.nextNumber s.records q s.inFlight s.active) (now : Int)
    {r : Record i o} (hr : r ∈ s.records) (hstatus : r.task.status = .pending) :
    s.markCancelled now r.task.id =
        ((s.updateTask r.task.id (cancelled · now)).emit (.cancelled r.task.id), true) ∧
      Books s.ids s.nextNumber (Index.update s.records r.task.id (cancelled · now))
        (q.leave r.task.id) s.inFlight s.active := by
  have hpending := (pending?_eq_some h.ids_nodup).mpr ⟨hr, rfl, hstatus⟩
  constructor
  · exact markCancelled_of_eq_some hpending now
  · exact h.endWaiting hr hstatus (fun _ => rfl) (fun _ => rfl)

theorem Consistent.emitDrained (h : s.Consistent) : s.emitDrained.Consistent := by
  unfold State.emitDrained
  split
  · exact h
  · exact h

theorem Consistent.cancel (h : s.Consistent) (id : TaskId) :
    (s.cancel now id).state.Consistent := by
  cases hpending : s.pending? id with
  | none =>
      unfold State.cancel
      rw [markCancelled_of_eq_none hpending now]
      exact h
  | some r =>
      rcases (pending?_eq_some h.ids_nodup).mp hpending with ⟨hr, rfl, hstatus⟩
      rcases books_markCancelled h now hr hstatus with ⟨hmark, hbooks⟩
      unfold State.cancel
      rw [hmark]
      exact Consistent.emitDrained hbooks

theorem fst_markAllCancelled (s : State p i o) (now : Int) (ids : List TaskId) :
    (s.markAllCancelled now ids).1 =
      ids.foldl (fun s id => (s.markCancelled now id).1) s :=
  (List.foldl_hom Prod.fst fun _ _ => rfl).symm

theorem consistent_markAllCancelled (q : Queue) {s : State p i o} (hqueue : s.queue = [])
    (h : Books s.ids s.nextNumber s.records q s.inFlight s.active) :
    (s.markAllCancelled now (q.map Waiting.id)).1.Consistent := by
  rw [fst_markAllCancelled]
  induction q generalizing s with
  | nil =>
      show Books s.ids s.nextNumber s.records s.queue s.inFlight s.active
      rw [hqueue]
      exact h
  | cons next rest ih =>
      rcases h.mem_queue.mp List.mem_cons_self with ⟨r, hr, hstatus, rfl⟩
      rcases books_markCancelled h now hr hstatus with ⟨hmark, hbooks⟩
      have hrest : Queue.leave (r.waiting :: rest) r.task.id = rest :=
        Queue.leave_cons_self h.queue_nodup
      rw [hrest] at hbooks
      rw [List.map_cons, List.foldl_cons]
      show (List.foldl _ (s.markCancelled now r.task.id).1 _).Consistent
      rw [hmark]
      exact ih hqueue hbooks

theorem Consistent.cancelAll (h : s.Consistent) : (s.cancelAll now).state.Consistent := by
  have hmarked : (markAllCancelled { s with queue := [] } now
      (s.queue.map Waiting.id)).1.Consistent :=
    consistent_markAllCancelled s.queue rfl h
  unfold State.cancelAll
  simp only
  split
  · exact hmarked
  · exact hmarked.emitDrained

/-!
# Ending
-/

theorem Consistent.emitIdle (h : s.Consistent) : s.emitIdle.Consistent := by
  unfold State.emitIdle
  split
  · simp only
    split
    · exact h
    · exact h
  · exact h

theorem Consistent.conclude (h : s.Consistent) (now : Int) {r : Record i o}
    (hr : r ∈ s.records) (hstatus : r.task.status = .running) (outcome : Except Failure o)
    (elapsed : Time.Span) :
    ((s.release r.task.id).conclude now r outcome elapsed).1.Consistent := by
  cases outcome with
  | ok value =>
      exact Books.endRunning h hr hstatus (f := (succeeded · value now)) (fun _ => rfl)
        (fun _ => rfl)
  | error error =>
      unfold State.conclude
      simp only
      split
      · split
        · exact Books.endRunning h hr hstatus (f := (givenUp · now)) (fun _ => rfl)
            (fun _ => rfl)
        · exact Books.again h hr hstatus (f := (retried · error)) (fun _ => rfl)
            (fun _ => rfl) (fun _ => rfl)
      · exact Books.endRunning h hr hstatus (f := (failed · error now)) (fun _ => rfl)
          (fun _ => rfl)

theorem Consistent.finish (h : s.Consistent) {a : Attempt p i} (ha : a ∈ s.inFlight)
    (outcome : Except Failure o) (elapsed : Time.Span) :
    (s.finish now a.id outcome elapsed).state.Consistent := by
  rcases h.exists_running ha with ⟨r, hrecord, hr, hid, hstatus⟩
  -- Between the release and the conclusion the books are not in order.
  have hreleased : (s.release a.id).record? a.id = some r := hrecord
  have hconcluded := h.conclude now hr hstatus outcome elapsed
  rw [hid] at hconcluded
  unfold State.finish
  simp only
  rw [hreleased]
  exact hconcluded.emitIdle

theorem Consistent.store (h : s.Consistent) (place : Nat) :
    (s.store c now place).state.Consistent := by
  unfold State.store
  split
  · exact h
  · exact h

/-!
# Runs
-/

theorem Consistent.beginShutdown (h : s.Consistent) :
    s.beginShutdown.state.Consistent := by
  unfold State.beginShutdown
  split
  · exact h
  · exact h

theorem Consistent.act (h : s.Consistent) (m : Moment p i o) : (s.act c m).Consistent := by
  unfold State.act
  split
  case h_1 input priority _ => exact h.submit input priority
  case h_2 id _ => exact h.cancel id
  case h_3 => exact h.cancelAll
  case h_4 => exact h
  case h_5 => exact h
  case h_6 => exact h
  case h_7 => exact h
  case h_8 => exact Books.clear h
  case h_9 => exact h
  case h_10 => exact h.beginShutdown
  case h_11 => exact h
  case h_12 => exact h.dispatch
  case h_13 place found elapsed _ =>
      split
      next a ha => exact h.finish (List.mem_of_getElem? ha) (a.outcome found) elapsed
      next => exact h
  case h_14 place _ => exact h.store place
  case h_15 => exact h

theorem Consistent.run (h : s.Consistent) (ms : List (Moment p i o)) :
    (s.run c ms).Consistent :=
  run_induction (fun _ m h => h.act m) h ms

/-!
# What the books say

The same in terms of the operations: what is found in the index, what an attempt that
ends will find there, what is started next, and what the counters show.
-/

structure Accounts (s : State p i o) : Prop where
  ids_nodup : (Index.ids s.records).Nodup
  queue_nodup : (s.queue.map Waiting.id).Nodup
  queue_pending : forall id, id ∈ s.queue.map Waiting.id ↔
    exists r, s.record? id = some r ∧ r.task.status = .pending
  queue_entry : forall w, w ∈ s.queue ->
    exists r, s.record? w.id = some r ∧ w.priority = r.task.priority ∧ w.number = r.number
  numbers_nodup : (s.records.map Record.number).Nodup
  numbers_lt : forall r, r ∈ s.records -> r.number < s.nextNumber
  active_running : s.active = s.withStatus .running
  active_inFlight : s.active = s.inFlight.length
  inFlight_nodup : (s.inFlight.map Attempt.id).Nodup
  inFlight_running : forall id, id ∈ s.inFlight.map Attempt.id ↔
    exists r, s.record? id = some r ∧ r.task.status = .running
  /-- An attempt that ends finds its task running, and its slot taken. -/
  finish_finds : forall a, a ∈ s.inFlight ->
    (exists r, (s.release a.id).record? a.id = some r ∧ r.task.status = .running) ∧
      (s.release a.id).active + 1 = s.active
  /-- What is taken from the queue is started, all of it and in its order. -/
  dispatch_front : forall now, exists front, s.queue = front ++ (s.dispatch now).1.queue ∧
    (s.dispatch now).2.map Attempt.id = front.map Waiting.id
  stats_pending : s.stats.pending = s.stats.queueLength
  stats_running : s.stats.running = s.active
  stats_total : s.stats.total = s.stats.pending + s.stats.running + s.stats.completed +
    s.stats.failed + s.stats.cancelled

theorem length_records (s : State p i o) :
    s.records.length = s.withStatus .pending + s.withStatus .running +
      s.withStatus .completed + s.withStatus .failed + s.withStatus .cancelled := by
  unfold withStatus
  induction s.records with
  | nil => rfl
  | cons r records ih =>
      simp only [List.length_cons, List.countP_cons, ih]
      cases r.task.status <;> simp only [reduceCtorEq, decide_true, decide_false, if_true,
        Bool.false_eq_true, if_false] <;> omega

theorem length_having (s : State p i o) (status : Status) :
    (Index.having status s.records).length = s.withStatus status :=
  List.countP_eq_length_filter.symm

theorem length_waiting (s : State p i o) :
    (Index.waiting s.records).length = s.withStatus .pending :=
  (List.length_map _).trans (s.length_having .pending)

theorem length_running (s : State p i o) :
    (Index.running s.records).length = s.withStatus .running :=
  (List.length_map _).trans (s.length_having .running)

theorem Consistent.mem_queue_iff (h : s.Consistent) (id : TaskId) :
    id ∈ s.queue.map Waiting.id ↔
      exists r, s.record? id = some r ∧ r.task.status = .pending := by
  rw [List.mem_map]
  constructor
  · rintro ⟨w, hw, rfl⟩
    rcases h.mem_queue.mp hw with ⟨r, hr, hstatus, rfl⟩
    exact ⟨r, (record?_eq_some h.ids_nodup).mpr ⟨hr, rfl⟩, hstatus⟩
  · rintro ⟨r, hrecord, hstatus⟩
    rcases (record?_eq_some h.ids_nodup).mp hrecord with ⟨hr, hid⟩
    exact ⟨r.waiting, h.mem_queue.mpr ⟨r, hr, hstatus, rfl⟩, hid⟩

theorem Consistent.mem_inFlight_iff (h : s.Consistent) (id : TaskId) :
    id ∈ s.inFlight.map Attempt.id ↔
      exists r, s.record? id = some r ∧ r.task.status = .running := by
  rw [h.mem_flights]
  constructor
  · rintro ⟨r, hr, hstatus, hid⟩
    exact ⟨r, (record?_eq_some h.ids_nodup).mpr ⟨hr, hid⟩, hstatus⟩
  · rintro ⟨r, hrecord, hstatus⟩
    rcases (record?_eq_some h.ids_nodup).mp hrecord with ⟨hr, hid⟩
    exact ⟨r, hr, hstatus, hid⟩

theorem Consistent.active_release (h : s.Consistent) {a : Attempt p i}
    (ha : a ∈ s.inFlight) : (s.release a.id).active + 1 = s.active := by
  have hpos := List.length_pos_of_mem ha
  have hactive : s.active = s.inFlight.length := h.active_eq
  show s.active - 1 + 1 = s.active
  omega

theorem Consistent.dispatch_front (h : s.Consistent) (now : Int) :
    exists front, s.queue = front ++ (s.dispatch now).1.queue ∧
      (s.dispatch now).2.map Attempt.id = front.map Waiting.id := by
  unfold State.dispatch
  split
  · exact (startFrom_spec s.queue h).2
  · exact ⟨[], rfl, rfl⟩

theorem Consistent.accounts (h : s.Consistent) : s.Accounts where
  ids_nodup := h.ids_nodup
  queue_nodup := h.queue_nodup
  queue_pending := h.mem_queue_iff
  queue_entry := by
    intro w hw
    rcases h.mem_queue.mp hw with ⟨r, hr, _, rfl⟩
    exact ⟨r, (record?_eq_some h.ids_nodup).mpr ⟨hr, rfl⟩, rfl, rfl⟩
  numbers_nodup := h.numbers_nodup
  numbers_lt := fun r hr => h.numbers_lt r.number (List.mem_map_of_mem hr)
  active_running := h.active_eq_length.trans s.length_running
  active_inFlight := h.active_eq
  inFlight_nodup := h.flights_nodup
  inFlight_running := h.mem_inFlight_iff
  finish_finds := by
    intro a ha
    rcases h.exists_running ha with ⟨r, hrecord, _, _, hstatus⟩
    exact ⟨⟨r, hrecord, hstatus⟩, h.active_release ha⟩
  dispatch_front := h.dispatch_front
  stats_pending := (h.waiting.length_eq.trans s.length_waiting).symm
  stats_running := (h.active_eq_length.trans s.length_running).symm
  stats_total := s.length_records

theorem injective_sequential (word : String) :
    Function.Injective (IdSource.sequential word).nth := by
  intro m n h
  have htext : Text.Decimal.natText (m + 1) = Text.Decimal.natText (n + 1) :=
    (String.append_right_inj _).mp h
  exact Nat.succ.inj (Text.Decimal.eq_of_natText_eq htext)

/-- Whatever happens to a new scheduler, in whatever order, its accounts are in order. -/
theorem accounts_run (c : Coding i o) (options : Options) (cacheOptions : Cache.Options)
    {ids : IdSource} (hids : Function.Injective ids.nth) (ms : List (Moment p i o)) :
    ((new options cacheOptions ids).state.run c ms).Accounts :=
  ((consistent_new options cacheOptions hids).run ms).accounts

/-- A task whose first attempt failed, and which then waits beside a second task. -/
theorem accounts_retried :
    let c : Coding String String := { input := fun _ => none, output := .text }
    let ms : List (Moment Unit String String) :=
      [⟨0, .setProcessor ()⟩, ⟨1, .submit "a" 0⟩, ⟨1, .dispatch⟩, ⟨2, .pause⟩,
        ⟨2, .submit "b" 5⟩, ⟨3, .finish 0 (.error (.execution "no")) .zero⟩]
    let s := (new (.forWorkers 1) .default (.sequential "task")).state.run c ms
    s.Accounts ∧ s.active = 0 ∧ s.queue.map Waiting.number = [1, 0] :=
  ⟨accounts_run _ _ _ (injective_sequential "task") _, by decide +kernel⟩

end State
end Scheduler
end CodeSurvey
