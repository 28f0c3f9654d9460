import CodeSurvey.Proofs.Scheduler.Closing
import CodeSurvey.Proofs.Scheduler.Dispatch

/-!
# What an action does to the tasks that wait

Every action does one of four things to the queue: it takes in a task, cancels some of
those that wait, starts the first ones, or lets a task wait again whose attempt has failed.
-/

namespace CodeSurvey
namespace Scheduler

namespace Event

/-- A task was taken in, or its turn came. -/
def isTurn : Event -> Bool
  | .queued _ _ | .started _ _ => true
  | _ => false

end Event

namespace Index

variable {records : List (Record i o)}

/-- The places that belong to the tasks, whether they wait or not. -/
def places (records : List (Record i o)) : List Waiting :=
  records.map Record.waiting

theorem places_update {id : TaskId} {f : Task i o -> Task i o}
    (hid : forall t, (f t).id = t.id) (hpriority : forall t, (f t).priority = t.priority) :
    places (update records id f) = places records := by
  unfold places update
  rw [List.map_map]
  apply List.map_congr_left
  intro r _
  simp only [Function.comp_apply]
  split
  · unfold Record.waiting
    rw [hid, hpriority]
  · rfl

theorem places_started (first : List (Record i o)) (now : Int) :
    places (records.map fun r => if r.task.id ∈ ids first then r.started now else r) =
      places records := by
  unfold places
  rw [List.map_map]
  apply List.map_congr_left
  intro r _
  simp only [Function.comp_apply]
  split <;> rfl

end Index

/-- What decides whose turn is next, and what is told of it. -/
structure Lineup where
  ids : IdSource
  nextNumber : Nat
  places : List Waiting
  queue : Queue
  events : List Event

namespace Lineup

variable {x y z : Lineup}

/-!
# Turns
-/

/-- No task is taken in, and those whose records remain keep their places. -/
structure Keeps (x y : Lineup) : Prop where
  ids : y.ids = x.ids
  nextNumber : y.nextNumber = x.nextNumber
  places : y.places.Sublist x.places

theorem Keeps.refl (x : Lineup) : x.Keeps x :=
  ⟨rfl, rfl, List.Sublist.refl _⟩

/-- What an action does to the queue, and what is told of it. -/
inductive Turn (x y : Lineup) (told : List Event) : Prop where
  /-- A task is taken in.  It waits unless it is answered at once. -/
  | submitted (w : Waiting) (rest : List Event) (hid : w.id = x.ids.next.1)
      (hnumber : w.number = x.nextNumber) (hids : y.ids = x.ids.next.2)
      (hnext : y.nextNumber = x.nextNumber + 1) (hplaces : y.places = x.places ++ [w])
      (hqueue : y.queue = x.queue ∨ y.queue = x.queue.enter w)
      (htold : told = .queued w.id w.priority :: rest)
      (hrest : forall e, e ∈ rest -> e.isTurn = false)
  /-- Some of the tasks that wait are cancelled, or none of them. -/
  | left (gone : List TaskId) (hkeeps : x.Keeps y)
      (hqueue : y.queue = x.queue.filter fun w => w.id ∉ gone)
      (hcancelled : forall id, id ∈ gone -> .cancelled id ∈ told)
      (htold : forall e, e ∈ told -> e.isTurn = false)
  /-- The first of them are started, each for the attempt with its number. -/
  | started (first : List (Waiting × Nat)) (hkeeps : x.Keeps y)
      (hqueue : x.queue = first.map Prod.fst ++ y.queue)
      (htold : told = first.map fun w => .started w.1.id w.2)
  /-- A task waits again. -/
  | again (w : Waiting) (hkeeps : x.Keeps y) (hqueue : y.queue = x.queue.enter w)
      (htold : forall e, e ∈ told -> e.isTurn = false)

/-- One state comes out of another by a turn. -/
def Turns (x y : Lineup) : Prop :=
  exists told, y.events = x.events ++ told ∧ Turn x y told

theorem turns_left {gone : List TaskId} {told : List Event}
    (hcancelled : forall id, id ∈ gone -> .cancelled id ∈ told)
    (htold : forall e, e ∈ told -> e.isTurn = false) :
    x.Turns { x with
      queue := x.queue.filter fun w => w.id ∉ gone, events := x.events ++ told } :=
  ⟨told, rfl, Turn.left gone ⟨rfl, rfl, List.Sublist.refl _⟩ rfl hcancelled htold⟩

/-!
# Where nobody comes and nobody's turn comes
-/

/-- At most a task waits again. -/
structure Settles (x y : Lineup) : Prop where
  keeps : x.Keeps y
  queue : y.queue = x.queue ∨ exists w, y.queue = x.queue.enter w
  events : exists told, y.events = x.events ++ told ∧ forall e, e ∈ told -> e.isTurn = false

theorem Settles.refl (x : Lineup) : x.Settles x :=
  ⟨Keeps.refl x, Or.inl rfl, [], (List.append_nil _).symm, fun _ he => nomatch he⟩

theorem Settles.tell (h : x.Settles y) {e : Event} (he : e.isTurn = false) :
    x.Settles { y with events := y.events ++ [e] } := by
  rcases h with ⟨hkeeps, hqueue, told, hevents, htold⟩
  refine ⟨⟨hkeeps.ids, hkeeps.nextNumber, hkeeps.places⟩, hqueue, told ++ [e], ?_, ?_⟩
  · show y.events ++ [e] = _
    rw [hevents, List.append_assoc]
  · intro e' he'
    cases List.mem_append.mp he' with
    | inl hmem => exact htold e' hmem
    | inr hmem => exact List.mem_singleton.mp hmem ▸ he

theorem Settles.turns (h : x.Settles y) : x.Turns y := by
  rcases h with ⟨hkeeps, hqueue, told, hevents, htold⟩
  refine ⟨told, hevents, ?_⟩
  cases hqueue with
  | inl hqueue =>
      apply Turn.left [] hkeeps
      · rw [hqueue]
        exact (List.filter_eq_self.mpr fun _ _ => rfl).symm
      · exact fun _ hid => nomatch hid
      · exact htold
  | inr hqueue =>
      rcases hqueue with ⟨w, hqueue⟩
      exact Turn.again w hkeeps hqueue htold

end Lineup

namespace State

variable {s t : State p i o} {c : Coding i o} {now : Int}

def lineup (s : State p i o) : Lineup :=
  { ids := s.ids
    nextNumber := s.nextNumber
    places := Index.places s.records
    queue := s.queue
    events := s.events }

/-!
# Ending
-/

theorem lineup_updateTask (s : State p i o) (id : TaskId) {f : Task i o -> Task i o}
    (hid : forall t, (f t).id = t.id) (hpriority : forall t, (f t).priority = t.priority) :
    (s.updateTask id f).lineup = s.lineup := by
  have hplaces : Index.places (Index.update s.records id f) = Index.places s.records :=
    Index.places_update hid hpriority
  unfold lineup
  exact congrArg (fun places : List Waiting => (⟨s.ids, s.nextNumber, places, s.queue,
    s.events⟩ : Lineup)) hplaces

theorem settles_emitIdle {x : Lineup} (h : x.Settles s.lineup) :
    x.Settles s.emitIdle.lineup := by
  have hidle : x.Settles (s.emit (.idle s.active)).lineup := h.tell rfl
  unfold State.emitIdle
  split
  · simp only
    split
    · exact hidle.tell rfl
    · exact hidle
  · exact h

theorem settles_conclude (s : State p i o) (now : Int) (r : Record i o)
    (outcome : Except Failure o) (elapsed : Time.Span) :
    s.lineup.Settles (s.conclude now r outcome elapsed).1.lineup := by
  have hupdated : forall {f : Task i o -> Task i o}, (forall t, (f t).id = t.id) ->
      (forall t, (f t).priority = t.priority) ->
      s.lineup.Settles (s.updateTask r.task.id f).lineup := by
    intro f hid hpriority
    rw [lineup_updateTask s r.task.id hid hpriority]
    exact Lineup.Settles.refl _
  unfold conclude
  split
  next value =>
    exact (hupdated (f := (succeeded · value now)) (fun _ => rfl) (fun _ => rfl)).tell rfl
  next error =>
    split
    · split
      · exact (hupdated (f := (givenUp · now)) (fun _ => rfl) (fun _ => rfl)).tell rfl
      · have hretried := hupdated (f := (retried · error)) (fun _ => rfl) (fun _ => rfl)
        have hagain : s.lineup.Settles
            { (s.updateTask r.task.id (retried · error)).lineup with
              queue := s.queue.enter r.waiting } :=
          ⟨⟨rfl, rfl, hretried.keeps.places⟩, Or.inr ⟨_, rfl⟩, hretried.events⟩
        exact hagain.tell rfl
    · exact (hupdated (f := (failed · error now)) (fun _ => rfl) (fun _ => rfl)).tell rfl

theorem settles_finish (s : State p i o) (now : Int) (id : TaskId)
    (outcome : Except Failure o) (elapsed : Time.Span) :
    s.lineup.Settles (s.finish now id outcome elapsed).state.lineup := by
  unfold finish
  simp only
  split
  next => exact settles_emitIdle (s := s.release id) (Lineup.Settles.refl s.lineup)
  next r _ =>
    have hconcluded : s.lineup.Settles
        ((s.release id).conclude now r outcome elapsed).1.emitIdle.lineup :=
      settles_emitIdle (settles_conclude (s.release id) now r outcome elapsed)
    exact hconcluded

/-!
# Cancelling
-/

theorem lineup_markCancelled {r : Record i o} {id : TaskId} (h : s.pending? id = some r)
    (now : Int) :
    (s.markCancelled now id).1.lineup =
      { s.lineup with events := s.events ++ [.cancelled id] } := by
  rw [markCancelled_of_eq_some h now]
  have hupdated := lineup_updateTask s id (f := (cancelled · now)) (fun _ => rfl)
    (fun _ => rfl)
  exact congrArg (fun x : Lineup => { x with events := s.events ++ [Event.cancelled id] })
    hupdated

theorem lineup_markAllCancelled (q : Queue) {s : State p i o}
    (h : Books s.ids s.nextNumber s.records q s.inFlight s.active) (now : Int) :
    (s.markAllCancelled now (q.map Waiting.id)).1.lineup =
      { s.lineup with events := s.events ++ q.map fun w => Event.cancelled w.id } := by
  rw [fst_markAllCancelled]
  induction q generalizing s with
  | nil =>
      show s.lineup = { s.lineup with events := s.events ++ [] }
      rw [List.append_nil]
      rfl
  | cons next rest ih =>
      rcases h.mem_queue.mp List.mem_cons_self with ⟨r, hr, hstatus, rfl⟩
      rcases books_markCancelled h now hr hstatus with ⟨hmark, hbooks⟩
      have hrest : Queue.leave (r.waiting :: rest) r.task.id = rest :=
        Queue.leave_cons_self h.queue_nodup
      rw [hrest] at hbooks
      have hfirst := lineup_markCancelled ((pending?_eq_some h.ids_nodup).mpr
        ⟨hr, rfl, hstatus⟩) now
      rw [List.map_cons, List.foldl_cons]
      show (List.foldl _ (s.markCancelled now r.task.id).1 _).lineup = _
      rw [hmark] at hfirst ⊢
      rw [ih hbooks, hfirst]
      simp [Record.waiting, emit, updateTask]

theorem exists_lineup_emitDrained (s : State p i o) :
    exists more, s.emitDrained.lineup = { s.lineup with events := s.events ++ more } ∧
      forall e, e ∈ more -> e.isTurn = false := by
  unfold emitDrained
  split
  · exact ⟨[.drained], rfl, fun e he => List.mem_singleton.mp he ▸ rfl⟩
  · exact ⟨[], by rw [List.append_nil]; rfl, fun _ he => nomatch he⟩

theorem turns_emitDrained {gone : List TaskId} {told : List Event}
    (h : t.lineup = { s.lineup with
      queue := s.queue.filter fun w => w.id ∉ gone, events := s.events ++ told })
    (hcancelled : forall id, id ∈ gone -> .cancelled id ∈ told)
    (htold : forall e, e ∈ told -> e.isTurn = false) :
    s.lineup.Turns t.lineup ∧ s.lineup.Turns t.emitDrained.lineup := by
  have hleft := Lineup.turns_left (x := s.lineup) hcancelled htold
  rcases exists_lineup_emitDrained t with ⟨more, hdrained, hmore⟩
  have hevents : t.events = s.events ++ told := congrArg Lineup.events h
  rw [hdrained, h, hevents, List.append_assoc]
  refine ⟨hleft, Lineup.turns_left (x := s.lineup) ?_ ?_⟩
  · exact fun id hid => List.mem_append_left _ (hcancelled id hid)
  · intro e he
    cases List.mem_append.mp he with
    | inl hmem => exact htold e hmem
    | inr hmem => exact hmore e hmem

theorem turns_cancel (s : State p i o) (now : Int) (id : TaskId) :
    s.lineup.Turns (s.cancel now id).state.lineup := by
  unfold cancel
  split
  next marked hmark =>
    cases hpending : s.pending? id with
    | none =>
        rw [markCancelled_of_eq_none hpending now] at hmark
        cases hmark
    | some r =>
        have hmarked := lineup_markCancelled hpending now
        rw [hmark] at hmarked
        have hqueue : marked.queue.leave id = s.queue.filter fun w => w.id ∉ [id] := by
          rw [show marked.queue = s.queue from congrArg Lineup.queue hmarked]
          unfold Queue.leave
          apply List.filter_congr
          intro w _
          simp only [List.mem_singleton]
        have hleft : { marked with queue := marked.queue.leave id }.lineup =
            { s.lineup with
              queue := s.queue.filter fun w => w.id ∉ [id]
              events := s.events ++ [.cancelled id] } := by
          show { marked.lineup with queue := marked.queue.leave id } = _
          rw [hmarked, hqueue]
        refine (turns_emitDrained hleft ?_ ?_).2
        · intro id' hid
          rw [List.mem_singleton.mp hid]
          exact List.mem_singleton_self _
        · exact fun e he => List.mem_singleton.mp he ▸ rfl
  next marked hmark =>
    have hsame : marked = s := by
      cases hpending : s.pending? id with
      | none =>
          rw [markCancelled_of_eq_none hpending now] at hmark
          exact (congrArg Prod.fst hmark).symm
      | some r =>
          rw [markCancelled_of_eq_some hpending now] at hmark
          cases hmark
    rw [hsame]
    exact (Lineup.Settles.refl _).turns

theorem Consistent.turns_cancelAll (h : s.Consistent) (now : Int) :
    s.lineup.Turns (s.cancelAll now).state.lineup := by
  let emptied := { s with queue := [] }
  let told := s.queue.map fun w => Event.cancelled w.id
  have hnobody : s.queue.filter (fun w => w.id ∉ s.queue.map Waiting.id) = [] := by
    apply List.filter_eq_nil_iff.mpr
    intro w hw hnot
    exact of_decide_eq_true hnot (List.mem_map_of_mem hw)
  have hmarked : (emptied.markAllCancelled now (s.queue.map Waiting.id)).1.lineup =
      { s.lineup with
        queue := s.queue.filter fun w => w.id ∉ s.queue.map Waiting.id
        events := s.events ++ told } := by
    rw [hnobody]
    exact lineup_markAllCancelled s.queue (s := emptied) h now
  have hturns := turns_emitDrained hmarked (by
    intro id hid
    rcases List.mem_map.mp hid with ⟨w, hw, rfl⟩
    exact List.mem_map_of_mem hw) (by
    intro e he
    rcases List.mem_map.mp he with ⟨w, _, rfl⟩
    rfl)
  unfold State.cancelAll
  simp only
  split
  · exact hturns.1
  · exact hturns.2

/-!
# Submitting
-/

theorem turns_submit (c : Coding i o) (s : State p i o) (now : Int) (input : i)
    (priority : Int) : s.lineup.Turns (s.submit c now input priority).state.lineup := by
  rcases exists_submit_eq c s now input priority with
    ⟨cache, ⟨_, _, _, hstate⟩ | ⟨_, _, _, hstate⟩⟩
  · rw [hstate]
    exact (Lineup.Settles.refl s.lineup).turns
  · rw [hstate]
    let w : Waiting := { id := s.ids.next.1, priority, number := s.nextNumber }
    unfold accept
    simp only
    split
    next value _ =>
      refine ⟨[.queued w.id w.priority, .completed w.id .zero true],
        List.append_assoc _ _ _, ?_⟩
      exact Lineup.Turn.submitted w [.completed w.id .zero true] rfl rfl rfl rfl
        List.map_append (Or.inl rfl) rfl (fun e he => List.mem_singleton.mp he ▸ rfl)
    next =>
      refine ⟨[.queued w.id w.priority], rfl, ?_⟩
      exact Lineup.Turn.submitted w [] rfl rfl rfl rfl List.map_append (Or.inr rfl) rfl
        (fun _ he => nomatch he)

/-!
# Starting
-/

theorem Starts.turns {attempts : List (Attempt p i)} {first rest : List (Record i o)}
    (h : Starts s t attempts now first rest)
    (hqueue : s.queue = (first ++ rest).map Record.waiting) : s.lineup.Turns t.lineup := by
  refine ⟨first.map Record.startedEvent, h.events, ?_⟩
  have hplaces : Index.places t.records = Index.places s.records := by
    rw [h.records]
    exact Index.places_started first now
  apply Lineup.Turn.started (first.map fun r => (r.waiting, r.task.retries + 1))
  · refine ⟨h.ids, h.nextNumber, ?_⟩
    show (Index.places t.records).Sublist (Index.places s.records)
    rw [hplaces]
  · show s.queue = _ ++ t.queue
    rw [h.queue, hqueue, List.map_append, List.map_map]
    rfl
  · rw [List.map_map]
    rfl

theorem Consistent.turns_dispatch (h : s.Consistent) (hsupplied : s.Supplied)
    (hordered : s.queue.Ordered) (now : Int) :
    s.lineup.Turns (s.dispatch now).1.lineup := by
  rcases h.exists_line hordered with ⟨line, hline⟩
  apply (hline.starts h hsupplied now).turns
  rw [List.take_append_drop]
  exact hline.queue

/-!
# Actions
-/

theorem Consistent.turns_act (h : s.Consistent) (hsupplied : s.Supplied)
    (hordered : s.queue.Ordered) {m : Moment p i o} (hm : m.action ≠ .deliver) :
    s.lineup.Turns (s.act c m).lineup := by
  have hsame := (Lineup.Settles.refl s.lineup).turns
  rcases m with ⟨now, action⟩
  cases action with
  | submit input priority => exact turns_submit c s now input priority
  | cancel id => exact turns_cancel s now id
  | cancelAll => exact h.turns_cancelAll now
  | clearFinished =>
      have hplaces : (Index.places (s.records.filter fun r => !r.task.status.isTerminal)).Sublist
          (Index.places s.records) := List.filter_sublist.map _
      have hcleared : s.lineup.Settles s.clearFinished.state.lineup :=
        ⟨⟨rfl, rfl, hplaces⟩, Or.inl rfl, (Lineup.Settles.refl s.lineup).events⟩
      exact hcleared.turns
  | beginShutdown =>
      show s.lineup.Turns s.beginShutdown.state.lineup
      rw [beginShutdown_eq]
      exact hsame
  | dispatch => exact h.turns_dispatch hsupplied hordered now
  | finish place found elapsed =>
      unfold State.act
      simp only
      split
      next a _ => exact (settles_finish s now a.id (a.outcome found) elapsed).turns
      next => exact hsame
  | store place =>
      rcases exists_act_store_eq c s now place with ⟨_, _, hact⟩
      rw [hact]
      exact hsame
  | deliver => exact absurd rfl hm
  | _ => exact hsame

end State
end Scheduler
end CodeSurvey
