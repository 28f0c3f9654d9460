import CodeSurvey.Proofs.Scheduler.Precedence
import Mathlib.Data.List.Induction

/-!
# Cancelling all tasks, and cancelling them one by one

To cancel all tasks empties the queue at once and looks only then whether nothing is left;
to cancel one task takes it out of the queue and looks every time.  Both come to the same,
because a queue from which tasks are still to be cancelled is not empty.
-/

namespace CodeSurvey
namespace Scheduler

namespace Record

def cancelled (r : Record i o) (now : Int) : Record i o :=
  { r with task := State.cancelled r.task now }

end Record

namespace State

variable {s : State p i o} {c : Coding i o} {now : Int} {ids : List TaskId} {id : TaskId}

/-- The tasks in `ids` are cancelled and told of in this order. -/
def withdraw (s : State p i o) (now : Int) (ids : List TaskId) : State p i o :=
  { s with
    records := s.records.map fun r => if r.task.id ∈ ids then r.cancelled now else r
    queue := s.queue.filter fun w => w.id ∉ ids
    events := s.events ++ ids.map Event.cancelled }

/-- The calls that cancel one task after the other, all at the same instant. -/
def cancels (now : Int) (ids : List TaskId) : List (Moment p i o) :=
  ids.map fun id => ⟨now, .cancel id⟩

/-- The scheduler, not paused and with a number of worker slots. -/
def withSlots (s : State p i o) (slots : Nat) : State p i o :=
  { s with paused := false, options := { s.options with maxWorkers := slots } }

/-!
# Withdrawing tasks
-/

theorem withdraw_nil (s : State p i o) (now : Int) : s.withdraw now [] = s := by
  simp [withdraw]

theorem withdraw_concat (s : State p i o) (now : Int) (ids : List TaskId) (id : TaskId) :
    { ((s.withdraw now ids).updateTask id (cancelled · now)).emit (.cancelled id) with
        queue := (s.withdraw now ids).queue.leave id } = s.withdraw now (ids ++ [id]) := by
  have hrecords : Index.update (s.withdraw now ids).records id (cancelled · now) =
      (s.withdraw now (ids ++ [id])).records := by
    unfold Index.update withdraw
    rw [List.map_map]
    apply List.map_congr_left
    intro r _
    -- A task that is cancelled twice is as it was after the first time.
    by_cases hmem : r.task.id ∈ ids
    · simp [hmem, Record.cancelled, cancelled]
    · by_cases heq : r.task.id = id
      · subst heq
        simp [hmem, Record.cancelled]
      · simp [hmem, heq]
  have hqueue : (s.withdraw now ids).queue.leave id =
      (s.withdraw now (ids ++ [id])).queue := by
    unfold Queue.leave withdraw
    rw [List.filter_filter]
    apply List.filter_congr
    intro w _
    simp [and_comm]
  have hevents : (s.withdraw now ids).events ++ [.cancelled id] =
      (s.withdraw now (ids ++ [id])).events := by
    unfold withdraw
    rw [List.map_append, List.append_assoc]
    rfl
  unfold updateTask emit
  unfold Index.update at hrecords
  rw [hrecords, hqueue, hevents]
  rfl

theorem filter_withdrawn {q : Queue} (h : forall w, w ∈ q -> w.id ∈ ids) :
    (q.filter fun w => w.id ∉ ids) = [] := by
  apply List.filter_eq_nil_iff.mpr
  intro w hw hleft
  exact of_decide_eq_true hleft (h w hw)

theorem pending?_withdraw (now : Int) (h : id ∉ ids) :
    (s.withdraw now ids).pending? id = s.pending? id := by
  have hsame : (fun r : Record i o => decide (r.task.id = id)) ∘
      (fun r => if r.task.id ∈ ids then r.cancelled now else r) =
      fun r => decide (r.task.id = id) := by
    funext r
    simp only [Function.comp_apply]
    split
    · rfl
    · rfl
  have hrecord : (s.withdraw now ids).record? id = s.record? id := by
    unfold record? withdraw
    rw [List.find?_map, hsame]
    cases hfound : s.record? id with
    | none =>
        unfold record? at hfound
        rw [hfound]
        rfl
    | some r =>
        have hid := id_of_record? hfound
        unfold record? at hfound
        rw [hfound]
        show some (if r.task.id ∈ ids then r.cancelled now else r) = some r
        rw [if_neg (hid ▸ h)]
  unfold pending?
  rw [hrecord]

theorem emitDrained_of_queue (h : s.queue ≠ []) : s.emitDrained = s := by
  unfold emitDrained isDrained
  rw [if_neg]
  intro hdrained
  rw [Bool.and_eq_true] at hdrained
  exact h (List.isEmpty_iff.mp hdrained.1)

theorem Consistent.isSome_pending? (h : s.Consistent) (hid : id ∈ s.queue.map Waiting.id) :
    (s.pending? id).isSome = true := by
  rcases (h.mem_queue_iff id).mp hid with ⟨r, hrecord, hstatus⟩
  rcases (record?_eq_some h.ids_nodup).mp hrecord with ⟨hr, hrid⟩
  rw [(pending?_eq_some h.ids_nodup).mpr ⟨hr, hrid, hstatus⟩]
  rfl

/-!
# One task after the other
-/

theorem cancel_withdraw (h : (s.pending? id).isSome = true) (hid : id ∉ ids) :
    ((s.withdraw now ids).cancel now id).state =
      (s.withdraw now (ids ++ [id])).emitDrained := by
  rcases Option.isSome_iff_exists.mp h with ⟨r, hr⟩
  have hpending := (pending?_withdraw now hid).trans hr
  unfold cancel
  rw [markCancelled_of_eq_some hpending now]
  show State.emitDrained { ((s.withdraw now ids).updateTask id (cancelled · now)).emit
    (.cancelled id) with queue := (s.withdraw now ids).queue.leave id } = _
  rw [withdraw_concat]

theorem Consistent.run_cancels (h : s.Consistent) (hnodup : ids.Nodup)
    (hids : forall id, id ∈ ids -> id ∈ s.queue.map Waiting.id) (hne : ids ≠ []) :
    s.run c (cancels now ids) = (s.withdraw now ids).emitDrained := by
  -- The induction is on the front: what was cancelled so far has been withdrawn in silence.
  induction ids using List.reverseRecOn with
  | nil => exact absurd rfl hne
  | append_singleton ids id ih =>
      rcases List.nodup_cons.mp ((List.perm_append_singleton id ids).nodup_iff.mp hnodup) with
        ⟨hfresh, hfront⟩
      have hwaits := hids id (List.mem_append_right _ (List.mem_singleton_self id))
      have hbefore : s.run c (cancels now ids) = s.withdraw now ids := by
        by_cases hnil : ids = []
        · rw [hnil, withdraw_nil]
          rfl
        · rw [ih hfront (fun x hx => hids x (List.mem_append_left _ hx)) hnil]
          apply emitDrained_of_queue
          rcases List.mem_map.mp hwaits with ⟨w, hw, rfl⟩
          exact List.ne_nil_of_mem (List.mem_filter.mpr ⟨hw, decide_eq_true hfresh⟩)
      have hsplit : (cancels now (ids ++ [id]) : List (Moment p i o)) =
          cancels now ids ++ cancels now [id] := List.map_append
      rw [hsplit, run_append, hbefore]
      exact cancel_withdraw (h.isSome_pending? hwaits) hfresh

/-!
# All at once
-/

theorem markAllCancelled_eq (hqueue : s.queue = []) (hnodup : ids.Nodup)
    (hpending : forall id, id ∈ ids -> (s.pending? id).isSome = true) :
    s.markAllCancelled now ids = (s.withdraw now ids, ids.length) := by
  induction ids using List.reverseRecOn with
  | nil =>
      rw [withdraw_nil]
      rfl
  | append_singleton ids id ih =>
      rcases List.nodup_cons.mp ((List.perm_append_singleton id ids).nodup_iff.mp hnodup) with
        ⟨hfresh, hfront⟩
      have hbefore := ih hfront fun x hx => hpending x (List.mem_append_left _ hx)
      rcases Option.isSome_iff_exists.mp
        (hpending id (List.mem_append_right _ (List.mem_singleton_self id))) with ⟨r, hr⟩
      have hmark := markCancelled_of_eq_some
        ((pending?_withdraw now hfresh).trans hr) now
      have hstate : ((s.withdraw now ids).updateTask id (cancelled · now)).emit (.cancelled id) =
          s.withdraw now (ids ++ [id]) := by
        have hleft : (s.withdraw now ids).queue.leave id = (s.withdraw now ids).queue := by
          unfold withdraw
          rw [hqueue]
          rfl
        rw [← withdraw_concat, hleft]
        rfl
      unfold markAllCancelled at hbefore ⊢
      rw [List.foldl_append, hbefore, List.length_append]
      simp only [List.foldl_cons, List.foldl_nil]
      rw [hmark, hstate]
      rfl

theorem Consistent.withdraw_eq (h : s.Consistent) (now : Int)
    (hids : ids.Perm (s.queue.map Waiting.id)) :
    s.withdraw now ids = { s with
      records := s.records.map fun r =>
        if r.task.status = .pending then r.cancelled now else r
      queue := []
      events := s.events ++ ids.map Event.cancelled } := by
  have hrecords : (s.records.map fun r => if r.task.id ∈ ids then r.cancelled now else r) =
      s.records.map fun r => if r.task.status = .pending then r.cancelled now else r := by
    apply List.map_congr_left
    intro r hr
    have hrecord := (record?_eq_some h.ids_nodup).mpr ⟨hr, rfl⟩
    have hiff : r.task.id ∈ ids ↔ r.task.status = .pending := by
      rw [hids.mem_iff, h.mem_queue_iff]
      constructor
      · rintro ⟨q, hq, hstatus⟩
        cases hrecord.symm.trans hq
        exact hstatus
      · exact fun hstatus => ⟨r, hrecord, hstatus⟩
    simp only [hiff]
  have hqueue : (s.queue.filter fun w => w.id ∉ ids) = [] :=
    filter_withdrawn fun _ hw => hids.mem_iff.mpr (List.mem_map_of_mem hw)
  unfold withdraw
  rw [hrecords, hqueue]

theorem Consistent.cancelAll_eq (h : s.Consistent) (c : Coding i o) (now : Int) :
    (s.cancelAll now).result = s.queue.length ∧
      (s.cancelAll now).state = s.run c (cancels now (s.queue.map Waiting.id)) := by
  let emptied : State p i o := { s with queue := [] }
  let waiting := s.queue.map Waiting.id
  have hmarked : emptied.markAllCancelled now waiting =
      (emptied.withdraw now waiting, waiting.length) :=
    markAllCancelled_eq rfl h.queue_nodup fun _ hid => h.isSome_pending? hid
  have hsame : emptied.withdraw now waiting = s.withdraw now waiting := by
    have hqueue : (s.queue.filter fun w => w.id ∉ waiting) = [] :=
      filter_withdrawn fun _ hw => List.mem_map_of_mem hw
    unfold withdraw
    rw [hqueue]
    rfl
  rw [hsame, List.length_map] at hmarked
  unfold State.cancelAll
  simp only [emptied, waiting] at hmarked
  simp only [hmarked, List.length_eq_zero_iff]
  split
  next hnil =>
    have hlength : s.queue.length = 0 := List.length_eq_zero_iff.mpr hnil
    refine ⟨hlength.symm, ?_⟩
    show s.withdraw now (s.queue.map Waiting.id) = _
    rw [hnil]
    exact withdraw_nil s now
  next hne =>
    have hwaiting : s.queue.map Waiting.id ≠ [] := fun hnil =>
      hne (List.map_eq_nil_iff.mp hnil)
    exact ⟨rfl, (h.run_cancels h.queue_nodup (fun _ hid => hid) hwaiting).symm⟩

/-- In whatever order those that wait are cancelled, only what is told depends on it. -/
theorem Consistent.run_cancels_eq (h : s.Consistent) (c : Coding i o) (now : Int)
    {order : List TaskId} (horder : order.Perm (s.queue.map Waiting.id)) :
    s.run c (cancels now order) = { s with
      records := s.records.map fun r =>
        if r.task.status = .pending then r.cancelled now else r
      queue := []
      events := s.events ++ order.map Event.cancelled ++
        if s.queue ≠ [] ∧ s.active = 0 then [.drained] else [] } := by
  have hwithdrawn := h.withdraw_eq now horder
  by_cases hnil : s.queue = []
  · have hnone : order = [] := by
      rw [hnil] at horder
      exact horder.eq_nil
    rw [hnone, withdraw_nil] at hwithdrawn
    rw [hnone, if_neg (fun hboth => hboth.1 hnil), List.append_nil]
    exact hwithdrawn
  · have hne : order ≠ [] := by
      rintro rfl
      exact hnil (List.map_eq_nil_iff.mp horder.symm.eq_nil)
    rw [h.run_cancels (horder.nodup_iff.mpr h.queue_nodup) (fun _ hid => horder.mem_iff.mp hid)
      hne, hwithdrawn]
    unfold State.emitDrained isDrained
    simp only [List.isEmpty_nil, Bool.true_and, decide_eq_true_iff, ne_eq, hnil,
      not_false_eq_true, true_and]
    split
    · rfl
    · rw [List.append_nil]

/-!
# In the order of dispatch
-/

/-- With enough slots a dispatch starts all that wait, from the front of the queue. -/
theorem Line.dispatched {line : List (Record i o)} (h : s.Line line) (hs : s.Consistent)
    (hsupplied : s.Supplied) (later : Int) (slots : Nat) :
    ((s.withSlots slots).dispatch later).2.map Attempt.id =
      (s.queue.map Waiting.id).take (slots - s.active) := by
  have hline : (s.withSlots slots).Line line := ⟨h.perm, h.ordered, h.queue⟩
  have hstarts := hline.starts (s := s.withSlots slots) hs hsupplied later
  have hroom : (s.withSlots slots).room = slots - s.active := rfl
  rw [hstarts.attempts, hroom, h.queue, List.map_map]
  exact List.map_take

/-- In every state that a new scheduler comes to, cancelling all tasks is the same as
cancelling one after the other those that wait, in the order in which a dispatch would start
them.  In another order they are told of in that order, and all else is the same. -/
theorem cancelAll_eq_run (c : Coding i o) (options : Options) (cacheOptions : Cache.Options)
    {ids : IdSource} (hids : Function.Injective ids.nth) (ms : List (Moment p i o))
    (now : Int) :
    let s := (new options cacheOptions ids).state.run c ms
    let waiting := s.queue.map Waiting.id
    let all := s.cancelAll now
    let last := if s.queue ≠ [] ∧ s.active = 0 then [Event.drained] else []
    (forall id, id ∈ waiting ↔ exists t, s.task? id = some t ∧ t.status = .pending) ∧
      s.queue.Pairwise Waiting.Ahead ∧
      (forall later slots, ((s.withSlots slots).dispatch later).2.map Attempt.id =
        waiting.take (slots - s.active)) ∧
      all.result = s.queue.length ∧
      all.state = s.run c (cancels now waiting) ∧
      all.state = { s with
        records := s.records.map fun r =>
          if r.task.status = .pending then r.cancelled now else r
        queue := []
        events := s.events ++ waiting.map Event.cancelled ++ last } ∧
      forall order, order.Perm waiting -> s.run c (cancels now order) =
        { all.state with events := s.events ++ order.map Event.cancelled ++ last } := by
  intro s waiting all last
  have hstart := (Course.orderly_start (p := p) (i := i) (o := o) options cacheOptions hids).run
    (c := c) ms
  have hstate : ((Course.start (State.new options cacheOptions ids).state).run c ms).state = s :=
    Course.state_run c _ ms
  have h : s.Consistent := (consistent_new options cacheOptions hids).run ms
  have hsupplied : s.Supplied := hstate ▸ hstart.supplied
  have hordered : s.queue.Ordered := hstate ▸ hstart.ordered
  rcases h.exists_line hordered with ⟨line, hline⟩
  have hall := (h.cancelAll_eq c now).2
  have hwaiting := h.run_cancels_eq c now (List.Perm.refl waiting)
  refine ⟨?_, ?_, hline.dispatched h hsupplied, (h.cancelAll_eq c now).1, hall,
    hall.trans hwaiting, ?_⟩
  · intro id
    rw [h.mem_queue_iff]
    unfold task?
    simp only [Option.map_eq_some_iff, exists_exists_and_eq_and]
  · rw [hline.queue]
    exact List.pairwise_map.mpr hline.ordered
  · intro order horder
    rw [h.run_cancels_eq c now horder, hall, hwaiting]

/-- One task is completed, and two wait, of which the later one has the higher priority. -/
theorem cancelAll_prioritized :
    let c : Coding String String := { input := fun _ => none, output := .text }
    let ms : List (Moment Unit String String) :=
      [⟨0, .setProcessor ()⟩, ⟨1, .submit "a" 0⟩, ⟨1, .dispatch⟩, ⟨2, .finish 0 (.ok "a") .zero⟩,
        ⟨2, .pause⟩, ⟨3, .submit "b" 0⟩, ⟨3, .submit "c" 5⟩, ⟨3, .deliver⟩]
    let s := (new (.forWorkers 1) .default (.sequential "task")).state.run c ms
    let all := s.cancelAll 4
    let last := if s.queue ≠ [] ∧ s.active = 0 then [Event.drained] else []
    all.state = s.run c (cancels 4 [⟨"task-3"⟩, ⟨"task-2"⟩]) ∧
      s.run c (cancels 4 [⟨"task-2"⟩, ⟨"task-3"⟩]) = { all.state with
        events := s.events ++ [.cancelled ⟨"task-2"⟩, .cancelled ⟨"task-3"⟩] ++ last } ∧
      all.state.events = [.cancelled ⟨"task-3"⟩, .cancelled ⟨"task-2"⟩, .drained] ∧
      all.result = 2 := by
  intro c ms s all last
  have hwaiting : s.queue.map Waiting.id = [⟨"task-3"⟩, ⟨"task-2"⟩] := by decide +kernel
  have hevents : all.state.events = [.cancelled ⟨"task-3"⟩, .cancelled ⟨"task-2"⟩, .drained] ∧
      all.result = 2 := by decide +kernel
  have hrun := cancelAll_eq_run c (.forWorkers 1) .default (injective_sequential "task") ms 4
  have hs : (new (.forWorkers 1) .default (.sequential "task")).state.run c ms = s := rfl
  simp only [hs] at hrun
  clear_value s
  rcases hrun with ⟨_, _, _, _, hone, _, horder⟩
  have hswapped := horder [⟨"task-2"⟩, ⟨"task-3"⟩] (hwaiting ▸ List.Perm.swap _ _ [])
  rw [hwaiting] at hone
  exact ⟨hone, hswapped, hevents⟩

end State
end Scheduler
end CodeSurvey
