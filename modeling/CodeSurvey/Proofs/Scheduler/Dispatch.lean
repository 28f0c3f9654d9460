import CodeSurvey.Proofs.Scheduler.Progress
import Mathlib.Data.List.Perm.Basic

/-!
# The order in which tasks are started

The queue is kept in order, so a dispatch starts the first of the tasks that wait, as many
as there are free slots, and tells so in that order.
-/

namespace CodeSurvey
namespace Scheduler

/-!
# The order of the queue
-/

namespace Waiting

/-- Higher priority first, and among equals the one that was submitted first. -/
def Ahead (a b : Waiting) : Prop :=
  b.priority < a.priority ∨ a.priority = b.priority ∧ a.number < b.number

theorem before_iff {a b : Waiting} : a.before b = true ↔ a.Ahead b := by
  unfold before Ahead
  simp only [Bool.or_eq_true, Bool.and_eq_true, decide_eq_true_iff]

theorem Ahead.trans {a b c : Waiting} (hab : a.Ahead b) (hbc : b.Ahead c) : a.Ahead c := by
  unfold Ahead at *
  omega

theorem Ahead.not_ahead {a b : Waiting} (h : a.Ahead b) : ¬ b.Ahead a := by
  unfold Ahead at *
  omega

theorem ahead_of_not_ahead {a b : Waiting} (h : ¬ b.Ahead a) (hne : a.number ≠ b.number) :
    a.Ahead b := by
  unfold Ahead at *
  omega

end Waiting

namespace Queue

/-- Nobody stands behind a task that he is ahead of. -/
def Ordered (q : Queue) : Prop :=
  q.Pairwise fun a b => ¬ b.Ahead a

theorem Ordered.enter {q : Queue} (h : q.Ordered) (w : Waiting) : (q.enter w).Ordered := by
  induction q with
  | nil => exact List.pairwise_singleton _ _
  | cons next rest ih =>
      rcases List.pairwise_cons.mp h with ⟨hnext, hrest⟩
      unfold Queue.enter
      split
      next hbefore =>
        have hahead := Waiting.before_iff.mp hbefore
        refine List.pairwise_cons.mpr ⟨?_, h⟩
        intro x hx hxw
        cases List.mem_cons.mp hx with
        | inl heq => exact hahead.not_ahead (heq ▸ hxw)
        | inr hmem => exact hnext x hmem (hxw.trans hahead)
      next hbefore =>
        refine List.pairwise_cons.mpr ⟨?_, ih hrest⟩
        intro x hx
        cases mem_enter.mp hx with
        | inl heq => exact fun hahead => hbefore (Waiting.before_iff.mpr (heq ▸ hahead))
        | inr hmem => exact hnext x hmem

theorem Ordered.sublist {q q' : Queue} (h : q.Ordered) (hq : q'.Sublist q) : q'.Ordered :=
  List.Pairwise.sublist hq h

theorem Ordered.not_ahead {before after : Queue} {w : Waiting}
    (h : Queue.Ordered (before ++ w :: after)) {v : Waiting} (hv : v ∈ w :: after) :
    ¬ v.Ahead w := by
  have htail := h.sublist (List.sublist_append_right before (w :: after))
  cases List.mem_cons.mp hv with
  | inl heq => exact fun hahead => hahead.not_ahead (heq ▸ hahead)
  | inr hmem => exact (List.pairwise_cons.mp htail).1 v hmem

end Queue

namespace Record

def startedEvent (r : Record i o) : Event :=
  .started r.task.id (r.task.retries + 1)

def started (r : Record i o) (now : Int) : Record i o :=
  { r with task := State.started r.task now }

end Record

namespace State

variable {s t : State p i o} {now : Int}

/-!
# Those that wait, in order
-/

/-- The tasks that wait, in the order in which they will be started. -/
structure Line (s : State p i o) (line : List (Record i o)) : Prop where
  perm : line.Perm (Index.having .pending s.records)
  ordered : line.Pairwise fun a b => a.waiting.Ahead b.waiting
  queue : s.queue = line.map Record.waiting

/-- What is a rearrangement of images is the image of a rearrangement. -/
theorem exists_perm_map {α β : Type} {f : α -> β} {xs : List α} {ys : List β}
    (h : ys.Perm (xs.map f)) : exists zs : List α, zs.Perm xs ∧ ys = zs.map f := by
  have himage : List.Forall₂ (fun y x => y = f x) (xs.map f) xs :=
    List.forall₂_map_left_iff.mpr (List.forall₂_same.mpr fun _ _ => rfl)
  rcases List.perm_comp_forall₂ h himage with ⟨zs, hzs, hperm⟩
  refine ⟨zs, hperm, ?_⟩
  rw [← List.forall₂_eq_eq_eq, List.forall₂_map_right_iff]
  exact hzs

theorem Consistent.exists_line (h : s.Consistent) (hordered : s.queue.Ordered) :
    exists line, s.Line line := by
  rcases exists_perm_map h.waiting with ⟨line, hperm, hqueue⟩
  have hnumbers : (line.map Record.number).Nodup := by
    have hpending := (hperm.map Record.number).nodup_iff
    exact hpending.mpr ((List.filter_sublist.map _).nodup h.numbers_nodup)
  have hplaces : line.Pairwise fun a b => ¬ b.waiting.Ahead a.waiting := by
    unfold Queue.Ordered at hordered
    rw [hqueue] at hordered
    exact List.pairwise_map.mp hordered
  refine ⟨line, hperm, ?_, hqueue⟩
  exact hplaces.imp₂ (fun _ _ => Waiting.ahead_of_not_ahead) (List.pairwise_map.mp hnumbers)

theorem Line.pending {line : List (Record i o)} (h : s.Line line) {r : Record i o}
    (hr : r ∈ line) : r ∈ s.records ∧ r.task.status = .pending :=
  Index.mem_having.mp (h.perm.mem_iff.mp hr)

theorem Line.ids_nodup {line : List (Record i o)} (h : s.Line line) (hs : s.Consistent) :
    (Index.ids line).Nodup := by
  have hids := (h.perm.map fun r => r.task.id).nodup_iff
  exact hids.mpr ((List.filter_sublist.map _).nodup hs.ids_nodup)

/-!
# Starting
-/

/-- How many tasks may be started. -/
def room (s : State p i o) : Nat :=
  if s.paused then 0 else s.options.maxWorkers - s.active

theorem hasFreeSlot_iff : s.hasFreeSlot = true ↔ 0 < s.room := by
  unfold hasFreeSlot room
  cases s.paused with
  | true => simp
  | false => exact decide_eq_true_iff.trans Nat.sub_pos_iff_lt.symm

theorem room_startTask (s : State p i o) (now : Int) (processor : p) (t : Task i o) :
    (s.startTask now processor t).1.room = s.room - 1 := by
  show (if s.paused then 0 else s.options.maxWorkers - (s.active + 1)) =
    (if s.paused then 0 else s.options.maxWorkers - s.active) - 1
  split
  · rfl
  · exact Nat.sub_add_eq _ _ _

/-- The tasks `first` were started, by `attempts` and in this order, and those in `rest`
were not. -/
structure Starts (s t : State p i o) (attempts : List (Attempt p i)) (now : Int)
    (first rest : List (Record i o)) : Prop where
  records : t.records =
    s.records.map fun r => if r.task.id ∈ Index.ids first then r.started now else r
  queue : t.queue = rest.map Record.waiting
  inFlight : t.inFlight = s.inFlight ++ attempts
  attempts : attempts.map Attempt.id = Index.ids first
  active : t.active = s.active + first.length
  events : t.events = s.events ++ first.map Record.startedEvent
  ids : t.ids = s.ids
  nextNumber : t.nextNumber = s.nextNumber

theorem Starts.none (s : State p i o) (now : Int) (rest : List (Record i o)) :
    Starts s { s with queue := rest.map Record.waiting } [] now [] rest where
  records := by simp [Index.ids]
  queue := rfl
  inFlight := (List.append_nil _).symm
  attempts := rfl
  active := rfl
  events := (List.append_nil _).symm
  ids := rfl
  nextNumber := rfl

theorem Starts.cons {processor : p} {r : Record i o} {first rest : List (Record i o)}
    {attempts : List (Attempt p i)} (hr : r.task.id ∉ Index.ids first)
    (h : Starts (s.startTask now processor r.task).1 t attempts now first rest) :
    Starts s t ((s.startTask now processor r.task).2 :: attempts) now (r :: first) rest where
  records := by
    have hrecords : (s.startTask now processor r.task).1.records =
        s.records.map fun q => if q.task.id = r.task.id then q.started now else q := rfl
    rw [h.records, hrecords, List.map_map]
    apply List.map_congr_left
    intro q _
    have hids : Index.ids (r :: first) = r.task.id :: Index.ids first := rfl
    have hstarted : (q.started now).task.id = q.task.id := rfl
    rw [hids, Function.comp_apply]
    by_cases hid : q.task.id = r.task.id
    · have hnot : q.task.id ∉ Index.ids first := hid ▸ hr
      rw [if_pos hid, if_neg (hstarted ▸ hnot), if_pos (hid ▸ List.mem_cons_self)]
    · rw [if_neg hid]
      simp only [List.mem_cons, hid, false_or]
  queue := h.queue
  inFlight := by
    rw [h.inFlight]
    exact List.append_assoc _ _ _
  attempts := by
    rw [List.map_cons, h.attempts]
    rfl
  active := by
    rw [h.active]
    exact Nat.add_right_comm _ _ _
  events := by
    rw [h.events]
    exact List.append_assoc _ _ _
  ids := h.ids
  nextNumber := h.nextNumber

theorem starts_startFrom {processor : p} {line : List (Record i o)} {s : State p i o}
    (hnodup : (Index.ids s.records).Nodup) (hline : (Index.ids line).Nodup)
    (hpending : forall r, r ∈ line -> r ∈ s.records ∧ r.task.status = .pending) :
    Starts s (startFrom now processor (line.map Record.waiting) s).1
      (startFrom now processor (line.map Record.waiting) s).2 now
      (line.take s.room) (line.drop s.room) := by
  induction line generalizing s with
  | nil =>
      rw [List.take_nil, List.drop_nil]
      exact Starts.none s now []
  | cons r line ih =>
      have hr : r.task.id ∉ Index.ids line := (List.nodup_cons.mp hline).1
      have hrest : (Index.ids line).Nodup := (List.nodup_cons.mp hline).2
      have hfound : s.pending? r.waiting.id = some r := by
        have hhead := hpending r List.mem_cons_self
        exact (pending?_eq_some hnodup).mpr ⟨hhead.1, rfl, hhead.2⟩
      rw [List.map_cons]
      unfold startFrom
      split
      next hfree =>
        have hroom := hasFreeSlot_iff.mp hfree
        let next := (s.startTask now processor r.task).1
        have hrecords : next.records = Index.update s.records r.task.id (State.started · now) :=
          rfl
        have hnext : Starts next (startFrom now processor (line.map Record.waiting) next).1
            (startFrom now processor (line.map Record.waiting) next).2 now
            (line.take next.room) (line.drop next.room) := by
          apply ih
          · have hids : Index.ids next.records = Index.ids s.records :=
              Index.ids_update (f := (State.started · now)) fun _ => rfl
            rw [hids]
            exact hnodup
          · exact hrest
          · intro q hq
            have hqs := hpending q (List.mem_cons_of_mem _ hq)
            have hne : q.task.id ≠ r.task.id := by
              intro heq
              have hmem : q.task.id ∈ Index.ids line := List.mem_map_of_mem hq
              exact hr (heq ▸ hmem)
            rw [hrecords]
            exact ⟨Index.mem_update.mpr ⟨q, hqs.1, (if_neg hne).symm⟩, hqs.2⟩
        have hnot : r.task.id ∉ Index.ids (line.take next.room) :=
          fun hmem => hr ((List.take_sublist _ _).map _ |>.subset hmem)
        have hroom' : s.room = next.room + 1 := by
          have hless : next.room = s.room - 1 := room_startTask s now processor r.task
          omega
        rw [hfound, hroom', List.take_succ_cons, List.drop_succ_cons]
        exact Starts.cons hnot hnext
      next hfull =>
        have hroom : s.room = 0 := Nat.eq_zero_of_not_pos fun hpos =>
          hfull (hasFreeSlot_iff.mpr hpos)
        rw [hroom]
        exact Starts.none s now (r :: line)

/-- A dispatch starts the first tasks of the line, as many as there is room for.  Without a
processor nothing waits. -/
theorem Line.starts {line : List (Record i o)} (h : s.Line line) (hs : s.Consistent)
    (hsupplied : s.Supplied) (now : Int) :
    Starts s (s.dispatch now).1 (s.dispatch now).2 now (line.take s.room)
      (line.drop s.room) := by
  unfold dispatch
  split
  next processor _ =>
    rw [h.queue]
    exact starts_startFrom hs.ids_nodup (h.ids_nodup hs) fun r hr => h.pending hr
  next hnone =>
    have hempty : line = [] := by
      have hqueue := h.queue.symm.trans (hsupplied hnone).1
      exact List.map_eq_nil_iff.mp hqueue
    rw [hempty, List.take_nil, List.drop_nil]
    have hnothing := Starts.none s now []
    rw [List.map_nil, ← (hsupplied hnone).1] at hnothing
    exact hnothing

end State
end Scheduler
end CodeSurvey
