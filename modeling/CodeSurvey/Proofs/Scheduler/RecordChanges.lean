import CodeSurvey.Proofs.Scheduler.Closing

/-!
# What becomes of a task

Whatever an action does to the scheduler, the record of a single task can only go a few
ways: it comes into the index with a submission, its task is started, cancelled or comes to
the end of an attempt, or it is cleared when nothing happens to its task any more.
-/

namespace CodeSurvey
namespace Scheduler

/-- It is the end of the attempt at a task, with this outcome. -/
def Moment.EndsWith (m : Moment p i o) (s : State p i o) (id : TaskId)
    (outcome : Except Failure o) : Prop :=
  exists place found elapsed a,
    m.action = .finish place found elapsed ∧ s.inFlight[place]? = some a ∧ a.id = id ∧
      a.outcome found = outcome

namespace State

variable {s t u : State p i o} {c : Coding i o} {m : Moment p i o} {now : Int}

/-- What an action can do to a task. -/
inductive Moves (s : State p i o) (m : Moment p i o) (t : Task i o) : Task i o -> Prop where
  | stay : Moves s m t t
  | start (haction : m.action = .dispatch) (hstatus : t.status = .pending) :
      Moves s m t (started t m.now)
  | cancel (haction : m.action = .cancel t.id ∨ m.action = .cancelAll)
      (hstatus : t.status = .pending) : Moves s m t (cancelled t m.now)
  | succeed (hends : m.EndsWith s t.id (.ok value)) (hstatus : t.status = .running) :
      Moves s m t (succeeded t value m.now)
  | retry (hends : m.EndsWith s t.id (.error error)) (hstatus : t.status = .running)
      (hretries : t.retries < s.options.maxRetries) (hopen : s.retriesClosed = false) :
      Moves s m t (retried t error)
  | giveUp (hends : m.EndsWith s t.id (.error error)) (hstatus : t.status = .running)
      (hretries : t.retries < s.options.maxRetries) (hclosed : s.retriesClosed = true) :
      Moves s m t (givenUp t m.now)
  | fail (hends : m.EndsWith s t.id (.error error)) (hstatus : t.status = .running)
      (hretries : s.options.maxRetries ≤ t.retries) : Moves s m t (failed t error m.now)

/-- What an action can make of the record with an id, where there is one. -/
inductive Passes (c : Coding i o) (s : State p i o) (m : Moment p i o) (id : TaskId) :
    Option (Record i o) -> Option (Record i o) -> Prop where
  | absent : Passes c s m id none none
  | enter (input : i) (priority : Int) (haction : m.action = .submit input priority)
      (hid : id = s.ids.next.1) :
      Passes c s m id none
        (some ⟨Task.new id input priority m.now, s.nextNumber, s.cacheKey c input⟩)
  | answer (input : i) (priority : Int) (value : o)
      (haction : m.action = .submit input priority) (hid : id = s.ids.next.1)
      (hfound : (s.lookUp m.now (s.cacheKey c input)).result = some value) :
      Passes c s m id none
        (some ⟨answered (Task.new id input priority m.now) value m.now, s.nextNumber,
          s.cacheKey c input⟩)
  | move {task : Task i o} (hmoves : Moves s m r.task task) :
      Passes c s m id (some r) (some { r with task })
  | clear (haction : m.action = .clearFinished) (hterminal : r.task.status.isTerminal = true) :
      Passes c s m id (some r) none

theorem Passes.still (c : Coding i o) (s : State p i o) (m : Moment p i o) (id : TaskId)
    (r : Option (Record i o)) : Passes c s m id r r := by
  cases r with
  | none => exact .absent
  | some r => exact .move .stay

/-!
# Submitting
-/

theorem Consistent.record?_next (h : s.Consistent) : s.record? s.ids.next.1 = none := by
  apply List.find?_eq_none.mpr
  intro r hr hid
  exact Books.next_not_mem h (of_decide_eq_true hid ▸ List.mem_map_of_mem hr)

theorem record?_of_records_eq {r : Record i o} (hrecords : t.records = s.records ++ [r])
    (id : TaskId) :
    t.record? id = (s.record? id).or (if r.task.id = id then some r else none) := by
  unfold record?
  rw [hrecords, List.find?_append, List.find?_singleton]
  simp only [decide_eq_true_iff]

theorem Consistent.passes_add (h : s.Consistent) {r : Record i o}
    (hid : r.task.id = s.ids.next.1) (hrecords : t.records = s.records ++ [r])
    (hnew : Passes c s m r.task.id none (some r)) (id : TaskId) :
    Passes c s m id (s.record? id) (t.record? id) := by
  rw [record?_of_records_eq hrecords]
  split
  next heq =>
    subst heq
    rw [hid, h.record?_next, ← hid]
    exact hnew
  next =>
    rw [Option.or_none]
    exact .still c s m id _

theorem Consistent.passes_accept (h : s.Consistent) (now : Int) (input : i) (priority : Int)
    (cache : Cache o) (id : TaskId) :
    Passes c s ⟨now, .submit input priority⟩ id (s.record? id)
      ((State.accept { s with cache } now input priority (s.cacheKey c input)
        (s.lookUp now (s.cacheKey c input)).result).1.record? id) := by
  cases hcached : (s.lookUp now (s.cacheKey c input)).result with
  | none =>
      let r : Record i o :=
        ⟨Task.new s.ids.next.1 input priority now, s.nextNumber, s.cacheKey c input⟩
      have hrecords : (State.accept { s with cache } now input priority (s.cacheKey c input)
          none).1.records = s.records ++ [r] := rfl
      exact h.passes_add rfl hrecords (.enter input priority rfl rfl) id
  | some value =>
      let r : Record i o := ⟨answered (Task.new s.ids.next.1 input priority now) value now,
        s.nextNumber, s.cacheKey c input⟩
      have hrecords : (State.accept { s with cache } now input priority (s.cacheKey c input)
          (some value)).1.records = s.records ++ [r] := rfl
      have hid : r.task.id = s.ids.next.1 := rfl
      have hnew : Passes c s ⟨now, .submit input priority⟩ r.task.id none (some r) := by
        refine Passes.answer input priority value ?_ ?_ ?_
        · rfl
        · exact hid
        · exact hcached
      exact h.passes_add hid hrecords hnew id

theorem Consistent.passes_submit (h : s.Consistent) (now : Int) (input : i) (priority : Int)
    (id : TaskId) :
    Passes c s ⟨now, .submit input priority⟩ id (s.record? id)
      ((s.submit c now input priority).state.record? id) := by
  rcases exists_submit_eq c s now input priority with
    ⟨cache, ⟨_, _, _, hstate⟩ | ⟨_, _, _, hstate⟩⟩
  · rw [hstate]
    exact .still c s _ id (s.record? id)
  · rw [hstate]
    exact h.passes_accept now input priority cache id

theorem Consistent.task?_accept (h : s.Consistent) (now : Int) (input : i) (priority : Int)
    (key : Option String) (cached : Option o) :
    let (t, task) := s.accept now input priority key cached
    t.task? task.id = some task ∧ task.input = input := by
  have hadded : forall {t : State p i o} {task : Task i o} {number : Nat},
      task.id = s.ids.next.1 -> t.records = s.records ++ [⟨task, number, key⟩] ->
        t.task? task.id = some task := by
    intro t task number hid hrecords
    unfold task?
    rw [record?_of_records_eq hrecords, if_pos rfl, hid, h.record?_next]
    rfl
  cases cached with
  | none => exact ⟨hadded rfl rfl, rfl⟩
  | some value => exact ⟨hadded rfl rfl, rfl⟩

theorem Consistent.task?_submit (h : s.Consistent) {now : Int} {input : i} {priority : Int}
    {task : Task i o} (hresult : (s.submit c now input priority).result = .ok task) :
    (s.submit c now input priority).state.task? task.id = some task ∧ task.input = input := by
  rcases exists_submit_eq c s now input priority with
    ⟨cache, ⟨_, _, hrefused, _⟩ | ⟨_, _, haccepted, hstate⟩⟩
  · cases hrefused.symm.trans hresult
  · have hlooked : State.Consistent { s with cache } := h
    cases haccepted.symm.trans hresult
    rw [hstate]
    exact hlooked.task?_accept now input priority _ _

/-!
# Starting and cancelling

Both take tasks that wait, and change each of them once.
-/

/-- Some of the tasks that wait were changed by `f`, and all other tasks are as before. -/
def Takes (chosen : TaskId -> Prop) (f : Task i o -> Task i o) (s t : State p i o) : Prop :=
  forall id, t.record? id = s.record? id ∨
    chosen id ∧ exists r, s.record? id = some r ∧ r.task.status = .pending ∧
      t.record? id = some { r with task := f r.task }

section Takes

variable {chosen : TaskId -> Prop} {f : Task i o -> Task i o}

theorem Takes.refl (chosen : TaskId -> Prop) (f : Task i o -> Task i o) (s : State p i o) :
    Takes chosen f s s :=
  fun _ => Or.inl rfl

theorem record?_congr (hrecords : t.records = s.records) (id : TaskId) :
    t.record? id = s.record? id := by
  unfold record?
  rw [hrecords]

theorem Takes.congr (h : Takes chosen f s t) (hrecords : u.records = t.records) :
    Takes chosen f s u := by
  intro id
  rw [record?_congr hrecords]
  exact h id

theorem Takes.trans (hf : forall t, (f t).status ≠ .pending) (h : Takes chosen f s t)
    (h' : Takes chosen f t u) : Takes chosen f s u := by
  intro id
  rcases h id with hst | ⟨hchosen, r, hrecord, hstatus, htaken⟩
  · have htu := h' id
    rw [hst] at htu
    exact htu
  · rcases h' id with htu | ⟨_, q, hq, hpending, _⟩
    · exact Or.inr ⟨hchosen, r, hrecord, hstatus, htu.trans htaken⟩
    · -- What was taken does not wait any more.
      rw [htaken] at hq
      cases hq
      exact absurd hpending (hf r.task)

theorem takes_updateTask (hf : forall t, (f t).id = t.id) {id : TaskId} {r : Record i o}
    (hpending : s.pending? id = some r) (hchosen : chosen id) :
    Takes chosen f s (s.updateTask id f) := by
  rcases record?_of_pending? hpending with ⟨hrecord, hstatus⟩
  intro other
  by_cases hother : other = id
  · subst hother
    exact Or.inr ⟨hchosen, r, hrecord, hstatus, record?_updateTask hrecord hf⟩
  · apply Or.inl
    rw [map_record?_updateTask s id other hf]
    simp only [if_neg hother]
    exact Option.map_id'

theorem Takes.passes (h : Takes chosen f s t)
    (hmoves : forall task, chosen task.id -> task.status = .pending ->
      Moves s m task (f task)) (id : TaskId) :
    Passes c s m id (s.record? id) (t.record? id) := by
  rcases h id with hst | ⟨hchosen, r, hrecord, hstatus, htaken⟩
  · rw [hst]
    exact .still c s m id _
  · rw [htaken, hrecord]
    rw [← id_of_record? hrecord] at hchosen
    exact .move (hmoves r.task hchosen hstatus)

end Takes

theorem takes_startFrom (processor : p) (q : Queue) (s : State p i o) :
    Takes (fun _ => True) (started · now) s (startFrom now processor q s).1 := by
  induction q generalizing s with
  | nil => exact (Takes.refl _ _ s).congr rfl
  | cons next rest ih =>
      unfold startFrom
      split
      · split
        next r hpending =>
          have hid := id_of_record? (record?_of_pending? hpending).1
          rw [← hid] at hpending
          have hfirst : Takes (fun _ => True) (started · now) s
              (s.startTask now processor r.task).1 :=
            takes_updateTask (f := (started · now)) (fun _ => rfl) hpending trivial
          exact hfirst.trans (fun _ => Status.noConfusion) (ih _)
        next => exact ih s
      · exact (Takes.refl _ _ s).congr rfl

theorem takes_dispatch (s : State p i o) (now : Int) :
    Takes (fun _ => True) (started · now) s (s.dispatch now).1 := by
  unfold State.dispatch
  split
  · exact takes_startFrom _ _ s
  · exact Takes.refl _ _ s

theorem takes_markCancelled {chosen : TaskId -> Prop} (s : State p i o) (now : Int)
    {id : TaskId} (hchosen : chosen id) :
    Takes chosen (cancelled · now) s (s.markCancelled now id).1 := by
  unfold markCancelled
  split
  next r hpending =>
    exact takes_updateTask (f := (cancelled · now)) (fun _ => rfl) hpending hchosen
  next => exact Takes.refl _ _ s

theorem takes_markAllCancelled (s : State p i o) (now : Int) (ids : List TaskId) :
    Takes (fun _ => True) (cancelled · now) s (s.markAllCancelled now ids).1 := by
  rw [fst_markAllCancelled]
  induction ids generalizing s with
  | nil => exact Takes.refl _ _ s
  | cons id ids ih =>
      exact (takes_markCancelled s now trivial).trans (fun _ => Status.noConfusion) (ih _)

theorem records_emitDrained (s : State p i o) : s.emitDrained.records = s.records := by
  rcases s.exists_emitDrained_eq with ⟨events, hdrained, _⟩
  rw [hdrained]

theorem takes_cancel (s : State p i o) (now : Int) (id : TaskId) :
    Takes (· = id) (cancelled · now) s (s.cancel now id).state := by
  have hmarked : Takes (· = id) (cancelled · now) s (s.markCancelled now id).1 :=
    takes_markCancelled s now rfl
  unfold State.cancel
  split
  next marked hmark =>
    rw [hmark] at hmarked
    exact hmarked.congr (records_emitDrained { marked with queue := marked.queue.leave id })
  next marked hmark =>
    rw [hmark] at hmarked
    exact hmarked

theorem takes_cancelAll (s : State p i o) (now : Int) :
    Takes (fun _ => True) (cancelled · now) s (s.cancelAll now).state := by
  have hmarked := takes_markAllCancelled { s with queue := [] } now (s.queue.map Waiting.id)
  unfold State.cancelAll
  simp only
  split
  · exact hmarked
  · exact hmarked.congr (records_emitDrained _)

/-!
# Ending
-/

theorem exists_moves_conclude (s : State p i o) {r : Record i o}
    (hstatus : r.task.status = .running) {outcome : Except Failure o}
    (hends : m.EndsWith s r.task.id outcome) (elapsed : Time.Span) :
    exists f : Task i o -> Task i o, (forall t, (f t).id = t.id) ∧ Moves s m r.task (f r.task) ∧
      ((s.release r.task.id).conclude m.now r outcome elapsed).1.records =
        (s.updateTask r.task.id f).records := by
  unfold conclude
  split
  next value => exact ⟨(succeeded · value m.now), fun _ => rfl, .succeed hends hstatus, rfl⟩
  next error =>
    split
    next hretries =>
      split
      next hclosed =>
        exact ⟨(givenUp · m.now), fun _ => rfl, .giveUp hends hstatus hretries hclosed, rfl⟩
      next hopen =>
        have hopen' := Bool.eq_false_iff.mpr hopen
        exact ⟨(retried · error), fun _ => rfl, .retry hends hstatus hretries hopen', rfl⟩
    next hretries =>
      exact ⟨(failed · error m.now), fun _ => rfl,
        .fail hends hstatus (Nat.le_of_not_lt hretries), rfl⟩

theorem Consistent.passes_finish (h : s.Consistent) (now : Int) {place : Nat}
    {a : Attempt p i} (hplace : s.inFlight[place]? = some a) (found : Except Setback o)
    (elapsed : Time.Span) (id : TaskId) :
    Passes c s ⟨now, .finish place found elapsed⟩ id (s.record? id)
      ((s.finish now a.id (a.outcome found) elapsed).state.record? id) := by
  let outcome := a.outcome found
  rcases h.exists_finished_eq (List.mem_of_getElem? hplace) now outcome elapsed with
    ⟨r, hrecord, _, hid, hstatus, hfinished⟩
  have hends : Moment.EndsWith ⟨now, .finish place found elapsed⟩ s r.task.id outcome :=
    ⟨place, found, elapsed, a, rfl, hplace, hid.symm, rfl⟩
  rcases exists_moves_conclude s hstatus hends elapsed with ⟨f, hf, hmoves, hrecords⟩
  rcases exists_emitIdle_eq ((s.release a.id).conclude now r outcome elapsed).1 with
    ⟨events, hidle, _⟩
  rw [hid] at hrecords
  have hupdated : (s.finish now a.id outcome elapsed).state.records =
      (s.updateTask a.id f).records := by
    rw [hfinished, hidle]
    exact hrecords
  rw [record?_congr hupdated, map_record?_updateTask s a.id id hf]
  by_cases hother : id = a.id
  · subst hother
    rw [hrecord]
    simp only [if_true, Option.map_some]
    exact .move hmoves
  · simp only [if_neg hother]
    rw [Option.map_id']
    exact .still c s _ id _

/-!
# Actions
-/

theorem Consistent.passes_clearFinished (h : s.Consistent) (now : Int) (id : TaskId) :
    Passes c s ⟨now, .clearFinished⟩ id (s.record? id) (s.clearFinished.state.record? id) := by
  have hcleared : s.clearFinished.state.Consistent := Books.clear h
  cases hrecord : s.record? id with
  | none =>
      have hnone : s.clearFinished.state.record? id = none := by
        apply List.find?_eq_none.mpr
        intro q hq
        exact List.find?_eq_none.mp hrecord q (List.mem_filter.mp hq).1
      rw [hnone]
      exact .absent
  | some r =>
      rcases (record?_eq_some h.ids_nodup).mp hrecord with ⟨hr, hid⟩
      cases hterminal : r.task.status.isTerminal with
      | true =>
          have hnone : s.clearFinished.state.record? id = none := by
            apply List.find?_eq_none.mpr
            intro q hq hqid
            rcases List.mem_filter.mp hq with ⟨hq, hleft⟩
            have hqr := Index.eq_of_id_eq h.ids_nodup hq hr
              ((of_decide_eq_true hqid).trans hid.symm)
            rw [hqr, hterminal] at hleft
            cases hleft
          rw [hnone]
          exact .clear rfl hterminal
      | false =>
          have hleft : s.clearFinished.state.record? id = some r := by
            apply (record?_eq_some hcleared.ids_nodup).mpr
            refine ⟨List.mem_filter.mpr ⟨hr, ?_⟩, hid⟩
            rw [hterminal]
            rfl
          rw [hleft]
          exact .still c s _ id _

/-- Each action takes the record of each task one of these ways. -/
theorem Consistent.passes_act (h : s.Consistent) (c : Coding i o) (m : Moment p i o)
    (id : TaskId) : Passes c s m id (s.record? id) ((s.act c m).record? id) := by
  rcases m with ⟨now, action⟩
  cases action with
  | submit input priority => exact h.passes_submit now input priority id
  | cancel other =>
      exact (takes_cancel s now other).passes
        (fun task hid hstatus => .cancel (Or.inl (hid ▸ rfl)) hstatus) id
  | cancelAll =>
      exact (takes_cancelAll s now).passes
        (fun task _ hstatus => .cancel (Or.inr rfl) hstatus) id
  | clearFinished => exact h.passes_clearFinished now id
  | beginShutdown =>
      have hact : s.act c ⟨now, .beginShutdown⟩ = _ := s.beginShutdown_eq
      rw [hact]
      exact .still c s _ id _
  | dispatch =>
      exact (takes_dispatch s now).passes (fun task _ hstatus => .start rfl hstatus) id
  | finish place found elapsed =>
      unfold State.act
      simp only
      split
      next a hplace => exact h.passes_finish now hplace found elapsed id
      next => exact .still c s _ id _
  | store place =>
      rcases exists_act_store_eq c s now place with ⟨_, _, hact⟩
      rw [hact]
      exact .still c s _ id _
  | _ => exact .still c s _ id _

end State
end Scheduler
end CodeSurvey
