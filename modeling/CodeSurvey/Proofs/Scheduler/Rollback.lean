import CodeSurvey.Proofs.Scheduler.Progress
import CodeSurvey.Proofs.Scheduler.Reuse

/-!
# A rejected batch

A batch submits its inputs one by one, and each submission may start what waits.  But between
operations nothing waits that may be started, so no submission starts a task that waited before,
and whatever it adds is a task of the batch.  When an input is refused, those tasks of the
batch that wait are cancelled.  Then the queue is what it was before.
-/

namespace CodeSurvey
namespace Scheduler

namespace Queue

theorem filter_enter {keep : Waiting -> Bool} {w : Waiting} (hw : keep w = false) (q : Queue) :
    (q.enter w).filter keep = q.filter keep := by
  induction q with
  | nil => exact List.filter_cons_of_neg (Bool.eq_false_iff.mp hw)
  | cons next rest ih =>
      unfold enter
      split
      · exact List.filter_cons_of_neg (Bool.eq_false_iff.mp hw)
      · rw [List.filter_cons, List.filter_cons, ih]

end Queue

namespace State

variable {s t u : State p i o} {own : List TaskId} {id : TaskId}

/-!
# Changes to some tasks only
-/

/-- Between two states, nothing has happened to other tasks than the own ones.  These may have
come, and those of them that waited may have been cancelled. -/
structure Confined (own : List TaskId) (s t : State p i o) : Prop where
  others : forall id, id ∉ own -> t.record? id = s.record? id
  kept : forall id r, s.record? id = some r -> t.record? id = some r ∨
    r.task.status = .pending ∧
      exists later, t.record? id = some { r with task := cancelled r.task later }
  inFlight : exists started, t.inFlight = s.inFlight ++ started ∧
    forall attempt, attempt ∈ started -> attempt.id ∈ own
  queue : (t.queue.filter fun w => w.id ∉ own) = s.queue.filter fun w => w.id ∉ own

theorem confined_of_eq (own : List TaskId) (hrecords : t.records = s.records)
    (hinFlight : t.inFlight = s.inFlight) (hqueue : t.queue = s.queue) : Confined own s t := by
  constructor
  case others => exact fun id _ => record?_congr hrecords id
  case kept => exact fun id r hr => Or.inl ((record?_congr hrecords id).trans hr)
  case inFlight => exact ⟨[], hinFlight.trans (List.append_nil _).symm, nofun⟩
  case queue => rw [hqueue]

theorem Confined.trans (hst : Confined own s t) (htu : Confined own t u) :
    Confined own s u := by
  constructor
  case others => exact fun id hid => (htu.others id hid).trans (hst.others id hid)
  case kept =>
    intro id r hr
    rcases hst.kept id r hr with hsame | ⟨hstatus, later, hcancelled⟩
    · exact htu.kept id r hsame
    · cases htu.kept id _ hcancelled with
      | inl hsame => exact Or.inr ⟨hstatus, later, hsame⟩
      | inr hagain => cases hagain.1
  case inFlight =>
    rcases hst.inFlight with ⟨first, hfirst, hown⟩
    rcases htu.inFlight with ⟨second, hsecond, hown'⟩
    refine ⟨first ++ second, ?_, List.forall_mem_append.mpr ⟨hown, hown'⟩⟩
    rw [hsecond, hfirst, List.append_assoc]
  case queue => exact htu.queue.trans hst.queue

theorem Confined.isSome (hst : Confined own s t) (hknown : (s.record? id).isSome) :
    (t.record? id).isSome := by
  rcases Option.isSome_iff_exists.mp hknown with ⟨r, hr⟩
  rcases hst.kept id r hr with hsame | ⟨_, later, hcancelled⟩
  · exact hsame ▸ rfl
  · exact hcancelled ▸ rfl

theorem Confined.eq_none (hst : Confined own s t) (hnew : t.record? id = none) :
    s.record? id = none := by
  apply Option.eq_none_iff_forall_ne_some.mpr
  intro r hr
  have hknown := hst.isSome (Option.isSome_iff_exists.mpr ⟨r, hr⟩)
  rw [hnew] at hknown
  cases hknown

theorem confined_of_new (hnew : s.record? id = none) (hown : id ∈ own)
    (hrecords : forall other, other ≠ id -> t.record? other = s.record? other)
    (hinFlight : exists started, t.inFlight = s.inFlight ++ started ∧
      forall attempt, attempt ∈ started -> attempt.id = id)
    (hqueue : (t.queue.filter fun w => w.id ∉ own) = s.queue.filter fun w => w.id ∉ own) :
    Confined own s t := by
  constructor
  case others => exact fun other hother => hrecords other fun heq => hother (heq ▸ hown)
  case kept =>
    intro other r hr
    have hne : other ≠ id := by
      rintro rfl
      cases hnew.symm.trans hr
    exact Or.inl ((hrecords other hne).trans hr)
  case inFlight =>
    rcases hinFlight with ⟨started, hstarted, hid⟩
    exact ⟨started, hstarted, fun attempt hattempt => hid attempt hattempt ▸ hown⟩
  case queue => exact hqueue

/-!
# Cancelling
-/

theorem confined_cancel (hown : id ∈ own) (s : State p i o) (now : Int) :
    Confined own s (s.cancel now id).state := by
  have htakes := takes_cancel s now id
  rcases s.exists_cancel_eq now id with ⟨queue, records, events, hcancel, hqueue, _⟩
  constructor
  case others =>
    intro other hother
    exact (htakes other).resolve_right fun h => hother (h.1 ▸ hown)
  case kept =>
    intro other r hr
    rcases htakes other with hsame | ⟨_, q, hq, hstatus, htaken⟩
    · exact Or.inl (hsame.trans hr)
    · cases hq.symm.trans hr
      exact Or.inr ⟨hstatus, now, htaken⟩
  case inFlight =>
    rw [hcancel]
    exact ⟨[], (List.append_nil _).symm, nofun⟩
  case queue =>
    rw [hcancel]
    cases hqueue with
    | inl hsame => exact congrArg (List.filter _) hsame
    | inr hleft =>
        show queue.filter _ = _
        rw [hleft]
        unfold Queue.leave
        rw [List.filter_filter]
        apply List.filter_congr
        intro w _
        rw [Bool.and_eq_left_iff_imp, decide_eq_true_iff, decide_eq_true_iff]
        exact fun hw heq => hw (heq ▸ hown)

/-- A task does not wait. -/
def Decided (s : State p i o) (id : TaskId) : Prop :=
  exists r, s.record? id = some r ∧ r.task.status ≠ .pending

theorem Decided.confined (h : s.Decided id) (hst : Confined own s t) : t.Decided id := by
  rcases h with ⟨r, hr, hstatus⟩
  have hsame := (hst.kept id r hr).resolve_right fun hcancelled => hstatus hcancelled.1
  exact ⟨r, hsame, hstatus⟩

theorem decided_cancel (hknown : (s.record? id).isSome) (now : Int) :
    (s.cancel now id).state.Decided id := by
  unfold cancel
  cases hpending : s.pending? id with
  | none =>
      rw [markCancelled_of_eq_none hpending]
      rcases Option.isSome_iff_exists.mp hknown with ⟨r, hr⟩
      refine ⟨r, hr, fun hstatus => ?_⟩
      exact Option.filter_eq_none_iff.mp hpending r hr (decide_eq_true hstatus)
  | some r =>
      rw [markCancelled_of_eq_some hpending]
      have hupdated := record?_updateTask (f := (cancelled · now)) (record?_of_pending? hpending).1
        fun _ => rfl
      refine ⟨{ r with task := cancelled r.task now }, ?_, Status.noConfusion⟩
      exact (record?_congr (records_emitDrained _) id).trans hupdated

theorem Decided.pending?_eq_none (h : s.Decided id) : s.pending? id = none := by
  rcases h with ⟨r, hr, hstatus⟩
  unfold pending?
  rw [hr, Option.filter_some, if_neg fun hpending => hstatus (of_decide_eq_true hpending)]

theorem pending?_of_record?_eq_none (h : s.record? id = none) : s.pending? id = none := by
  unfold pending?
  rw [h]
  rfl

theorem Consistent.filter_queue (h : s.Consistent)
    (hover : forall id, id ∈ own -> s.pending? id = none) :
    (s.queue.filter fun w => w.id ∉ own) = s.queue := by
  apply List.filter_eq_self.mpr
  intro w hw
  apply decide_eq_true
  intro hown
  rcases (h.mem_queue_iff w.id).mp (List.mem_map_of_mem hw) with ⟨r, hr, hstatus⟩
  exact Option.filter_eq_none_iff.mp (hover w.id hown) r hr (decide_eq_true hstatus)

/-!
# What a submission starts
-/

theorem dispatch_of_not_hasFreeSlot (hfull : s.hasFreeSlot = false) (now : Int) :
    (s.dispatch now).1 = s := by
  unfold dispatch
  split
  next processor _ =>
    cases hqueue : s.queue with
    | nil =>
        unfold startFrom
        rw [← hqueue]
    | cons next rest =>
        unfold startFrom
        rw [hfull, ← hqueue]
        rfl
  next => rfl

theorem CaughtUp.queue_eq_nil (h : s.CaughtUp) (hfree : s.hasFreeSlot = true) :
    s.queue = [] := by
  rcases Bool.and_eq_true_iff.mp hfree with ⟨hrunning, hslots⟩
  rcases h with hpaused | hnone | hfull
  · rw [hpaused] at hrunning
    cases hrunning
  · exact hnone
  · exact absurd (of_decide_eq_true hslots) (Nat.not_lt.mpr hfull)

theorem CaughtUp.dispatch_eq (h : s.CaughtUp) (now : Int) : (s.dispatch now).1 = s := by
  cases hfree : s.hasFreeSlot with
  | false => exact dispatch_of_not_hasFreeSlot hfree now
  | true => rw [dispatch_of_queue_eq_nil (h.queue_eq_nil hfree)]

theorem dispatch_of_single {processor : p} {w : Waiting} {r : Record i o}
    (hprocessor : s.processor = some processor) (hfree : s.hasFreeSlot = true)
    (hqueue : s.queue = [w]) (hpending : s.pending? w.id = some r) (now : Int) :
    (s.dispatch now).1 = { (s.startTask now processor r.task).1 with queue := [] } := by
  unfold dispatch
  rw [hprocessor, hqueue]
  simp only [startFrom, hfree, hpending, if_true]

theorem exists_processor (h : s.refusal? = none) :
    exists processor, s.processor = some processor := by
  unfold refusal? at h
  cases hprocessor : s.processor with
  | some processor => exact ⟨processor, rfl⟩
  | none =>
      rw [hprocessor] at h
      split at h
      · cases h
      · cases h

theorem record?_of_ne {r : Record i o} (hrecords : t.records = s.records ++ [r])
    (hne : id ≠ r.task.id) : t.record? id = s.record? id := by
  rw [record?_of_records_eq hrecords, if_neg hne.symm, Option.or_none]

theorem record?_of_new {r : Record i o} (hrecords : t.records = s.records ++ [r])
    (hnew : s.record? r.task.id = none) : t.record? r.task.id = some r := by
  rw [record?_of_records_eq hrecords, hnew, if_pos rfl]
  rfl

/-- How a task fares in the state `t` that a batch submitted in the state `u`. -/
inductive Stands (c : Coding i o) (u : State p i o) (now : Int) (input : i) (t : State p i o)
    (task : Task i o) : Prop where
  | waits (hstatus : task.status = .pending) (hnow : t.task? task.id = some task)
  | cancelled (hnow : t.task? task.id = some (State.cancelled task later))
  /-- A worker slot was free, so the task was started at once. -/
  | runs (hfree : u.hasFreeSlot = true) (hattempt : task.id ∈ t.inFlight.map Attempt.id)
      (hnow : t.task? task.id = some (started task later))
  /-- The task was answered from the cache. -/
  | answered (hfound : (u.lookUp now (u.cacheKey c input)).result = some value)
      (hresult : task.result = some value) (hstatus : task.status = .completed)
      (hnow : t.task? task.id = some task)

variable {c : Coding i o} {now : Int} {input : i} {task : Task i o}

theorem Confined.task? (hst : Confined own s t) {now : Task i o} (hnow : s.task? id = some now) :
    t.task? id = some now ∨
      now.status = .pending ∧ exists later, t.task? id = some (cancelled now later) := by
  rcases Option.map_eq_some_iff.mp hnow with ⟨r, hr, rfl⟩
  rcases hst.kept id r hr with hsame | ⟨hstatus, later, hcancelled⟩
  · exact Or.inl (congrArg (Option.map Record.task) hsame)
  · exact Or.inr ⟨hstatus, later, congrArg (Option.map Record.task) hcancelled⟩

theorem Stands.confined (h : Stands c u now input s task) (hst : Confined own s t) :
    Stands c u now input t task := by
  cases h with
  | waits hstatus hnow =>
      rcases hst.task? hnow with hsame | ⟨_, later, hcancelled⟩
      · exact .waits hstatus hsame
      · exact .cancelled hcancelled
  | cancelled hnow => exact .cancelled ((hst.task? hnow).resolve_right fun h => nomatch h.1)
  | runs hfree hattempt hnow =>
      rcases hst.inFlight with ⟨started, hstarted, _⟩
      refine .runs hfree ?_ ((hst.task? hnow).resolve_right fun h => nomatch h.1)
      rw [hstarted, List.map_append]
      exact List.mem_append_left _ hattempt
  | answered hfound hresult hstatus hnow =>
      refine .answered hfound hresult hstatus ((hst.task? hnow).resolve_right fun h => ?_)
      cases hstatus.symm.trans h.1

theorem Stands.isSome (h : Stands c u now input t task) : (t.record? task.id).isSome := by
  have hknown : (t.task? task.id).isSome := by
    cases h with
    | waits _ hnow => exact hnow ▸ rfl
    | cancelled hnow => exact hnow ▸ rfl
    | runs _ _ hnow => exact hnow ▸ rfl
    | answered _ _ _ hnow => exact hnow ▸ rfl
  exact Option.isSome_map.symm.trans hknown

theorem CaughtUp.accept_found (h : s.CaughtUp) (hs : s.Consistent) (own : List TaskId)
    (now : Int) (input : i) (priority : Int) (key : Option String) (value : o) (later : Int) :
    let (t, task) := s.accept now input priority key (some value)
    s.record? task.id = none ∧ (t.dispatch later).1.task? task.id = some task ∧
      (task.id ∈ own -> Confined own s (t.dispatch later).1) := by
  let r : Record i o :=
    ⟨answered (Task.new s.ids.next.1 input priority now) value now, s.nextNumber, key⟩
  let t := (s.accept now input priority key (some value)).1
  have hrecords : t.records = s.records ++ [r] := rfl
  have hnew : s.record? r.task.id = none := hs.record?_next
  have hcaughtUp : t.CaughtUp := h.congr rfl rfl id
  show s.record? r.task.id = none ∧ (t.dispatch later).1.task? r.task.id = some r.task ∧
    (r.task.id ∈ own -> Confined own s (t.dispatch later).1)
  rw [hcaughtUp.dispatch_eq]
  refine ⟨hnew, congrArg (Option.map Record.task) (record?_of_new hrecords hnew), ?_⟩
  intro hown
  exact confined_of_new hnew hown (fun _ hne => record?_of_ne hrecords hne)
    ⟨[], (List.append_nil _).symm, nofun⟩ rfl

/-- A task that was not answered takes a free slot, since nothing else waits for one, or it
has to wait like everything before it. -/
theorem CaughtUp.accept_unknown (h : s.CaughtUp) (hs : s.Consistent) {processor : p}
    (hprocessor : s.processor = some processor) (own : List TaskId) (now : Int) (input : i)
    (priority : Int) (key : Option String) (later : Int) :
    let (t, task) := s.accept now input priority key none
    s.record? task.id = none ∧ task.status = .pending ∧
      (task.id ∈ own -> Confined own s (t.dispatch later).1) ∧
      ((t.dispatch later).1.task? task.id = some task ∨
        s.hasFreeSlot = true ∧ task.id ∈ (t.dispatch later).1.inFlight.map Attempt.id ∧
          (t.dispatch later).1.task? task.id = some (started task later)) := by
  let r : Record i o := ⟨Task.new s.ids.next.1 input priority now, s.nextNumber, key⟩
  let t := (s.accept now input priority key none).1
  have hrecords : t.records = s.records ++ [r] := rfl
  have hnew : s.record? r.task.id = none := hs.record?_next
  have hrecord : t.record? r.task.id = some r := record?_of_new hrecords hnew
  show s.record? r.task.id = none ∧ r.task.status = .pending ∧
    (r.task.id ∈ own -> Confined own s (t.dispatch later).1) ∧
    ((t.dispatch later).1.task? r.task.id = some r.task ∨
      s.hasFreeSlot = true ∧ r.task.id ∈ (t.dispatch later).1.inFlight.map Attempt.id ∧
        (t.dispatch later).1.task? r.task.id = some (started r.task later))
  cases hfree : s.hasFreeSlot with
  | false =>
      have hfull : t.hasFreeSlot = false := hfree
      rw [dispatch_of_not_hasFreeSlot hfull]
      refine ⟨hnew, rfl, ?_, Or.inl (congrArg (Option.map Record.task) hrecord)⟩
      intro hown
      exact confined_of_new hnew hown (fun _ hne => record?_of_ne hrecords hne)
        ⟨[], (List.append_nil _).symm, nofun⟩
        (Queue.filter_enter (decide_eq_false fun hnot => hnot hown) s.queue)
  | true =>
      -- Nothing waits for the free slot, so the new task is alone in the queue and takes it.
      have hempty := h.queue_eq_nil hfree
      have hqueue : t.queue = [r.waiting] := congrArg (Queue.enter · r.waiting) hempty
      have hpending : t.pending? r.task.id = some r := by
        unfold pending?
        rw [hrecord]
        rfl
      have htaken : Takes (· = r.task.id) (started · later) t
          (t.updateTask r.task.id (started · later)) := by
        refine takes_updateTask (f := (started · later)) (fun _ => rfl) hpending ?_
        rfl
      have hstarted := record?_updateTask (f := (started · later)) hrecord fun _ => rfl
      rw [dispatch_of_single (s := t) hprocessor hfree hqueue hpending]
      refine ⟨hnew, rfl, ?_, Or.inr ⟨rfl, ?_, congrArg (Option.map Record.task) hstarted⟩⟩
      · intro hown
        apply confined_of_new hnew hown
        · intro other hne
          exact ((htaken other).resolve_right fun h => hne h.1).trans (record?_of_ne hrecords hne)
        · exact ⟨[(t.startTask later processor r.task).2], rfl,
            fun _ hattempt => congrArg Attempt.id (List.mem_singleton.mp hattempt)⟩
        · rw [hempty]
      · show r.task.id ∈ List.map Attempt.id (s.inFlight ++ [_])
        rw [List.map_append]
        exact List.mem_append_right _ List.mem_cons_self

/-- An accepted submission adds one task, and starts nothing else. -/
theorem CaughtUp.submit_spec (h : s.CaughtUp) (hs : s.Consistent) {priority : Int}
    (hresult : (s.submit c now input priority).result = .ok task) (own : List TaskId)
    (later : Int) :
    let t := ((s.submit c now input priority).state.dispatch later).1
    s.record? task.id = none ∧ (task.id ∈ own -> Confined own s t) ∧
      Stands c s now input t task := by
  rcases exists_submit_eq c s now input priority with
    ⟨cache, ⟨_, _, hrefused, _⟩ | ⟨hrefusal, _, haccepted, hstate⟩⟩
  · cases hrefused.symm.trans hresult
  have hlooked : State.Consistent { s with cache } := hs
  have hcaughtUp : State.CaughtUp { s with cache } := h
  have hcache : Confined own s { s with cache } := confined_of_eq own rfl rfl rfl
  rw [hstate]
  cases hfound : (s.lookUp now (s.cacheKey c input)).result with
  | some value =>
      rw [hfound] at haccepted
      cases haccepted.symm.trans hresult
      rcases hcaughtUp.accept_found hlooked own now input priority (s.cacheKey c input) value
        later with ⟨hnew, hnow, hconfined⟩
      exact ⟨hnew, fun hown => hcache.trans (hconfined hown), .answered hfound rfl rfl hnow⟩
  | none =>
      rw [hfound] at haccepted
      cases haccepted.symm.trans hresult
      rcases exists_processor hrefusal with ⟨processor, hprocessor⟩
      rcases hcaughtUp.accept_unknown hlooked hprocessor own now input priority
        (s.cacheKey c input) later with ⟨hnew, hstatus, hconfined, hnow⟩
      refine ⟨hnew, fun hown => hcache.trans (hconfined hown), ?_⟩
      rcases hnow with hnow | ⟨hfree, hattempt, hnow⟩
      · exact .waits hstatus hnow
      · exact .runs hfree hattempt hnow

theorem confined_refused (own : List TaskId) {refusal : Refusal} {priority : Int}
    (hresult : (s.submit c now input priority).result = .error refusal) :
    Confined own s (s.submit c now input priority).state := by
  rcases exists_submit_eq c s now input priority with
    ⟨cache, ⟨_, _, _, hstate⟩ | ⟨_, _, haccepted, _⟩⟩
  · rw [hstate]
    exact confined_of_eq own rfl rfl rfl
  · cases haccepted.symm.trans hresult

theorem dispatches_submit (c : Coding i o) (s : State p i o) (now : Int) (input : i)
    (priority : Int) :
    (s.submit c now input priority).dispatches = (s.submit c now input priority).result.isOk := by
  unfold submit
  split
  · rfl
  · simp only
    split
    · rfl
    · rfl

theorem dispatches_cancel (s : State p i o) (now : Int) (id : TaskId) :
    (s.cancel now id).dispatches = false := by
  unfold cancel
  split
  · rfl
  · rfl

/-- What holds between operations. -/
structure AtRest (s : State p i o) : Prop where
  consistent : s.Consistent
  supplied : s.Supplied
  caughtUp : s.CaughtUp

theorem AtRest.submit (h : s.AtRest) (c : Coding i o) (now : Int) (input : i)
    (priority later : Int) : ((s.submit c now input priority).state.dispatch later).1.AtRest := by
  have hsupplied := h.supplied.act (c := c) ⟨now, .submit input priority⟩
  constructor
  case consistent => exact (h.consistent.submit input priority).dispatch
  case supplied => exact hsupplied.act (c := c) ⟨later, .dispatch⟩
  case caughtUp => exact hsupplied.caughtUp_dispatch later

end State

open State (Confined Stands AtRest Decided)

/-- Whoever makes calls finds the scheduler as they left it, but that events are delivered:
nobody else acts on it meanwhile. -/
structure Host.Undisturbed (h : Host p i o w) : Prop where
  write : forall x entries, h.state (h.write x entries) = h.state x
  answers : h.Answers
  call : forall {a : Type} (x : w) (call : Call p i o a), exists later events,
    h.state (h.call x call).1 = { ((h.state x).perform later call).state with events }

theorem Alone.undisturbed_host : (host : Host p i o (Alone p i o)).Undisturbed where
  write := fun _ _ => rfl
  answers := answers_host
  call := fun x _ => ⟨x.now, _, rfl⟩

namespace Host.Undisturbed

variable {h : Host p i o w} {call : Call p i o a} {x y : w} {result : a}

theorem result_eq (hh : h.Undisturbed) (hcall : h.call x call = (y, result)) :
    (call (h.state x)).result = result :=
  (hh.answers x call).symm.trans (congrArg Prod.snd hcall)

theorem state_of_dispatches (hh : h.Undisturbed) (hcall : h.call x call = (y, result))
    (hdispatches : (call (h.state x)).dispatches = true) :
    exists later events,
      h.state y = { ((call (h.state x)).state.dispatch later).1 with events } := by
  rcases hh.call x call with ⟨later, events, hstate⟩
  rw [hcall, State.state_perform, if_pos hdispatches] at hstate
  exact ⟨later, events, hstate⟩

theorem state_of_not_dispatches (hh : h.Undisturbed) (hcall : h.call x call = (y, result))
    (hquiet : (call (h.state x)).dispatches = false) :
    exists events, h.state y = { (call (h.state x)).state with events } := by
  rcases hh.call x call with ⟨later, events, hstate⟩
  rw [hcall, State.state_perform, if_neg (Bool.eq_false_iff.mp hquiet)] at hstate
  exact ⟨events, hstate⟩

end Host.Undisturbed

namespace Batch

variable {h : Host p i o w} {c : Coding i o} {own : List TaskId}

/-- Inputs were submitted one after the other, and each was accepted; in the state `t` their
tasks are cancelled, or run, or were answered, and none of them waits. -/
inductive TakenBack (h : Host p i o w) (c : Coding i o) (t : State p i o) :
    w -> List i -> w -> List (Task i o) -> Prop where
  | nil : TakenBack h c t x [] x []
  | cons (hcall : h.call x (·.submit c (h.now x) input 0) = (y, .ok task))
      (hstands : Stands c (h.state x) (h.now x) input t task) (hover : t.pending? task.id = none)
      (hrest : TakenBack h c t y rest z tasks) :
      TakenBack h c t x (input :: rest) z (task :: tasks)

variable {x y z : w}

theorem exists_submits_of_refused {inputs : List i} {ids ids' : List TaskId} {refusal : Refusal}
    (hall : submitAll h c ids inputs x = (y, ids', some refusal)) :
    exists accepted input rest z tasks, inputs = accepted ++ input :: rest ∧
      Submits h c x accepted z tasks ∧ ids' = ids ++ tasks.map Task.id ∧
      h.call z (·.submit c (h.now z) input 0) = (y, .error refusal) := by
  induction inputs generalizing ids x with
  | nil => cases hall
  | cons input rest ih =>
      unfold submitAll at hall
      split at hall
      next z task hcall =>
        rcases ih hall with ⟨accepted, refused, rest', z', tasks, rfl, hsubmits, rfl, hrefused⟩
        refine ⟨input :: accepted, refused, rest', z', task :: tasks, rfl,
          .cons hcall hsubmits, ?_, hrefused⟩
        rw [List.map_cons, List.append_assoc]
        rfl
      next z refused hcall =>
        cases hall
        exact ⟨[], input, rest, x, [], rfl, .nil, (List.append_nil _).symm, hcall⟩

theorem submitted_spec (hh : h.Undisturbed) (hx : (h.state x).AtRest) {input : i}
    {task : Task i o} (hcall : h.call x (·.submit c (h.now x) input 0) = (y, .ok task))
    (own : List TaskId) :
    (h.state y).AtRest ∧ (h.state x).record? task.id = none ∧
      (task.id ∈ own -> Confined own (h.state x) (h.state y)) ∧
      Stands c (h.state x) (h.now x) input (h.state y) task := by
  have hresult : ((h.state x).submit c (h.now x) input 0).result = .ok task :=
    hh.result_eq hcall
  have hdispatches : ((h.state x).submit c (h.now x) input 0).dispatches = true := by
    rw [State.dispatches_submit, hresult]
    rfl
  rcases hh.state_of_dispatches hcall hdispatches with ⟨later, events, hstate⟩
  have hrest := hx.submit c (h.now x) input 0 later
  rcases hx.caughtUp.submit_spec hx.consistent hresult own later with
    ⟨hnew, hconfined, hstands⟩
  have hdelivered : Confined own
      (((h.state x).submit c (h.now x) input 0).state.dispatch later).1 (h.state y) := by
    rw [hstate]
    exact State.confined_of_eq own rfl rfl rfl
  refine ⟨?_, hnew, fun hown => (hconfined hown).trans hdelivered, hstands.confined hdelivered⟩
  rw [hstate]
  exact ⟨hrest.consistent, hrest.supplied, hrest.caughtUp⟩

theorem refused_spec (hh : h.Undisturbed) (hx : (h.state x).Consistent) {input : i}
    {refusal : Refusal} (hcall : h.call x (·.submit c (h.now x) input 0) = (y, .error refusal))
    (own : List TaskId) : (h.state y).Consistent ∧ Confined own (h.state x) (h.state y) := by
  have hresult : ((h.state x).submit c (h.now x) input 0).result = .error refusal :=
    hh.result_eq hcall
  have hquiet : ((h.state x).submit c (h.now x) input 0).dispatches = false := by
    rw [State.dispatches_submit, hresult]
    rfl
  rcases hh.state_of_not_dispatches hcall hquiet with ⟨events, hstate⟩
  rw [hstate]
  exact ⟨hx.submit input 0, (State.confined_refused own hresult).trans
    (State.confined_of_eq own rfl rfl rfl)⟩

theorem cancelled_spec (hh : h.Undisturbed) (hx : (h.state x).Consistent) {id : TaskId}
    (hown : id ∈ own) (hknown : ((h.state x).record? id).isSome) :
    let y := (h.call x (·.cancel (h.now x) id)).1
    (h.state y).Consistent ∧ Confined own (h.state x) (h.state y) ∧ (h.state y).Decided id := by
  intro y
  have hquiet : ((h.state x).cancel (h.now x) id).dispatches = false :=
    State.dispatches_cancel _ _ _
  have hcall : h.call x (·.cancel (h.now x) id) = (y, _) := rfl
  rcases hh.state_of_not_dispatches hcall hquiet with ⟨events, hstate⟩
  rw [hstate]
  have hconfined := State.confined_cancel hown (h.state x) (h.now x)
  exact ⟨hx.cancel id, hconfined.trans (State.confined_of_eq own rfl rfl rfl),
    State.decided_cancel hknown _⟩

/-- Cancelling all tasks of a batch decides them, whatever they were. -/
theorem cancelEach_spec (hh : h.Undisturbed) {ids : List TaskId} (hown : ids ⊆ own)
    (hx : (h.state x).Consistent)
    (hknown : forall id, id ∈ ids -> ((h.state x).record? id).isSome) :
    let y := (cancelEach h ids x).1
    (h.state y).Consistent ∧ Confined own (h.state x) (h.state y) ∧
      forall id, id ∈ ids -> (h.state y).Decided id := by
  induction ids generalizing x with
  | nil => exact ⟨hx, State.confined_of_eq own rfl rfl rfl, List.forall_mem_nil _⟩
  | cons id ids ih =>
      rcases List.cons_subset.mp hown with ⟨hid, hids⟩
      rcases List.forall_mem_cons.mp hknown with ⟨hknownId, hknownIds⟩
      rcases cancelled_spec hh hx hid hknownId with ⟨hy, hfirst, hdecided⟩
      have hknown' : forall other, other ∈ ids ->
          ((h.state (h.call x (·.cancel (h.now x) id)).1).record? other).isSome :=
        fun other hother => hfirst.isSome (hknownIds other hother)
      rcases ih hids hy hknown' with ⟨hz, hrest, hall⟩
      rw [fst_cancelEach_cons]
      have hboth := List.forall_mem_cons.mpr ⟨hdecided.confined hrest, hall⟩
      exact ⟨hz, hfirst.trans hrest, hboth⟩

/-- Whatever becomes of the tasks that were submitted, if it concerns them only and none of
them waits in the end, they are taken back. -/
theorem Submits.spec {inputs : List i} {tasks : List (Task i o)}
    (hsubmits : Submits h c x inputs z tasks) (hh : h.Undisturbed) (hx : (h.state x).AtRest)
    (hown : tasks.map Task.id ⊆ own) :
    (h.state z).AtRest ∧ Confined own (h.state x) (h.state z) ∧
      (forall task, task ∈ tasks ->
        (h.state x).record? task.id = none ∧ ((h.state z).record? task.id).isSome) ∧
      forall t, Confined own (h.state z) t ->
        (forall task, task ∈ tasks -> t.pending? task.id = none) ->
          TakenBack h c t x inputs z tasks := by
  -- The task of the first input is as its submission left it, until the batch takes it back.
  induction hsubmits with
  | nil =>
      exact ⟨hx, State.confined_of_eq own rfl rfl rfl, List.forall_mem_nil _, fun _ _ _ => .nil⟩
  | @cons x input y task rest z tasks hcall _ ih =>
      rw [List.map_cons, List.cons_subset] at hown
      rcases submitted_spec hh hx hcall own with ⟨hy, hnew, hconfined, hstands⟩
      rcases ih hy hown.2 with ⟨hz, hafter, hknown, hrest⟩
      have hfirst := hconfined hown.1
      refine ⟨hz, hfirst.trans hafter, List.forall_mem_cons.mpr ⟨⟨hnew, ?_⟩, ?_⟩, ?_⟩
      · exact hafter.isSome hstands.isSome
      · intro other hother
        exact ⟨hfirst.eq_none (hknown other hother).1, (hknown other hother).2⟩
      · intro t ht hover
        rcases List.forall_mem_cons.mp hover with ⟨hoverFirst, hoverRest⟩
        exact .cons hcall (hstands.confined (hafter.trans ht)) hoverFirst (hrest t ht hoverRest)

end Batch

namespace State

variable {c : Coding i o}

theorem atRest_run (options : Options) (cacheOptions : Cache.Options) {ids : IdSource}
    (hids : Function.Injective ids.nth) {ms : List (Moment p i o)}
    (hms : Completes c (new options cacheOptions ids).state ms) :
    ((new options cacheOptions ids).state.run c ms).AtRest := by
  have hsupplied : ((new options cacheOptions ids).state : State p i o).Supplied :=
    fun _ => ⟨rfl, rfl⟩
  constructor
  case consistent => exact (consistent_new options cacheOptions hids).run ms
  case supplied => exact hsupplied.run ms
  case caughtUp => exact caughtUp_run hsupplied hms (Or.inl (Or.inr (Or.inl rfl)))

/-- Whatever happened to a scheduler before, when a batch is called between operations and
one of its inputs is refused, the queue is what it was before, and so is all that concerns
tasks of others.  The tasks of the inputs before the refused one are new; each of them is
cancelled, or runs since a worker slot was free for it, or was answered from the cache. -/
theorem batch_rejected (c : Coding i o) (options : Options) (cacheOptions : Cache.Options)
    {ids : IdSource} (hids : Function.Injective ids.nth) (ms : List (Moment p i o)) :
    let s₀ : State p i o := (new options cacheOptions ids).state
    let s := s₀.run c ms
    Completes c s₀ ms ->
      forall (w : Type) (h : Host p i o w) (inputs : List i) (x y : w) (refusal : Refusal),
        h.Undisturbed -> h.state x = s -> Batch.submit h c inputs x = (y, .error refusal) ->
          (h.state y).queue = s.queue ∧
          exists accepted input rest z tasks, inputs = accepted ++ input :: rest ∧
            Batch.TakenBack h c (h.state y) x accepted z tasks ∧
            (h.call z (·.submit c (h.now z) input 0)).2 = .error refusal ∧
            (forall task, task ∈ tasks -> s.record? task.id = none) ∧
            (forall id, id ∉ tasks.map Task.id -> (h.state y).record? id = s.record? id) ∧
            exists started, (h.state y).inFlight = s.inFlight ++ started ∧
              forall attempt, attempt ∈ started -> attempt.id ∈ tasks.map Task.id := by
  intro s₀ s hms w h inputs x y refusal hh hx hsubmit
  have hrest : (h.state x).AtRest := hx ▸ atRest_run options cacheOptions hids hms
  rw [← hx]
  unfold Batch.submit at hsubmit
  split at hsubmit
  next z ids' hall => cases hsubmit
  next z' ids' refused hall =>
    cases hsubmit
    rcases Batch.exists_submits_of_refused hall with
      ⟨accepted, input, rest, z, tasks, hinputs, hsubmits, rfl, hrefused⟩
    rw [List.nil_append, hh.write]
    rcases hsubmits.spec hh hrest (List.Subset.refl _) with ⟨hz, hentered, hknown, htaken⟩
    rcases Batch.refused_spec hh hz.consistent hrefused (tasks.map Task.id) with
      ⟨hz', hnothing⟩
    have hknown' : forall id, id ∈ tasks.map Task.id -> ((h.state z').record? id).isSome :=
      List.forall_mem_map.mpr fun task htask => hnothing.isSome (hknown task htask).2
    rcases Batch.cancelEach_spec hh (List.Subset.refl _) hz' hknown' with
      ⟨hy, hcancelled, hdecided⟩
    have hleft := hnothing.trans hcancelled
    have hconfined := hentered.trans hleft
    have hover : forall id, id ∈ tasks.map Task.id ->
        (h.state (Batch.cancelEach h (tasks.map Task.id) z').1).pending? id = none :=
      fun id hid => (hdecided id hid).pending?_eq_none
    have hnew : forall id, id ∈ tasks.map Task.id -> (h.state x).pending? id = none :=
      List.forall_mem_map.mpr fun task htask =>
        pending?_of_record?_eq_none (hknown task htask).1
    have hqueue := hconfined.queue
    rw [hy.filter_queue hover, hrest.consistent.filter_queue hnew] at hqueue
    exact ⟨hqueue, accepted, input, rest, z, tasks, hinputs,
      htaken _ hleft (List.forall_mem_map.mp hover), congrArg Prod.snd hrefused,
      fun task htask => (hknown task htask).1, hconfined.others, hconfined.inFlight⟩

/-- One slot and room for one task that waits: the first task of the batch is answered from the
cache, the second one runs, the third one is cancelled, and the fourth input is refused. -/
theorem batch_rejected_full :
    let c : Coding Bool String :=
      { input := fun known => if known then some .null else none, output := .text }
    let options : Options := { Options.forWorkers 1 with
      minWorkers := 1, maxWorkers := 1, maxQueueSize := 1, enableCaching := true }
    let s₀ : State Unit Bool String := (new options .default (.sequential "task")).state
    let ms : List (Moment Unit Bool String) :=
      [⟨0, .setProcessor ()⟩, ⟨1, .submit true 0⟩, ⟨1, .dispatch⟩,
        ⟨2, .finish 0 (.ok "A") .zero⟩, ⟨2, .store 0⟩, ⟨2, .dispatch⟩]
    let s := s₀.run c ms
    let inputs := [true, false, false, false, false]
    let x : Alone Unit Bool String := ⟨s, 3, []⟩
    let y := (Batch.submit Alone.host c inputs x).1
    (y.state.queue = s.queue ∧
      exists accepted input rest z tasks, inputs = accepted ++ input :: rest ∧
        Batch.TakenBack Alone.host c y.state x accepted z tasks ∧
        (Alone.host.call z (·.submit c (Alone.host.now z) input 0)).2 = .error (.queueFull 1) ∧
        (forall task, task ∈ tasks -> s.record? task.id = none) ∧
        (forall id, id ∉ tasks.map Task.id -> y.state.record? id = s.record? id) ∧
        exists started, y.state.inFlight = s.inFlight ++ started ∧
          forall attempt, attempt ∈ started -> attempt.id ∈ tasks.map Task.id) ∧
      y.state.records.map (fun r => (r.task.id.text, r.task.status)) =
        [("task-1", .completed), ("task-2", .completed), ("task-3", .running),
          ("task-4", .cancelled)] := by
  intro c options s₀ ms s inputs x y
  have hcompletes : Completes c s₀ ms := by
    simp [Completes, ms, asks, dispatches_store]
  have hrefused : (Batch.submit Alone.host c inputs x).2 = .error (.queueFull 1) := by
    decide +kernel
  have hsubmit : Batch.submit Alone.host c inputs x = (y, .error (.queueFull 1)) := by
    rw [← hrefused]
  have hrecords : y.state.records.map (fun r => (r.task.id.text, r.task.status)) =
      [("task-1", .completed), ("task-2", .completed), ("task-3", .running),
        ("task-4", .cancelled)] := by decide +kernel
  have hstate (s : State Unit Bool String) : Alone.host.state ⟨s, 3, []⟩ = s := rfl
  clear_value y
  refine ⟨?_, hrecords⟩
  exact batch_rejected c options .default (injective_sequential "task") ms hcompletes _
    Alone.host inputs x y (.queueFull 1) Alone.undisturbed_host (hstate s) hsubmit

end State
end Scheduler
end CodeSurvey
