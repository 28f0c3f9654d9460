import CodeSurvey.Proofs.Scheduler.QueueChanges

/-!
# Nobody is overtaken

The queue is always in order, and the place of a task says when it was submitted.  So a
task that waits is not overtaken by one that waits behind it, whatever comes in between:
the turn of the one behind does not come before the other was started or cancelled.
-/

namespace CodeSurvey
namespace Scheduler

namespace Event

def isStarted : Event -> Bool
  | .started _ _ => true
  | _ => false

/-- A task does not wait any more: it was cancelled, or its turn came. -/
def Releases (id : TaskId) (e : Event) : Prop :=
  e = .cancelled id ∨ exists attempt, e = .started id attempt

def Yields (first later : TaskId) (told : List Event) : Prop :=
  forall before attempt after, told = before ++ .started later attempt :: after ->
    exists e, e ∈ before ∧ e.Releases first

theorem yields_of_not_mem {first later : TaskId} {told : List Event}
    (h : forall attempt, .started later attempt ∉ told) : Yields first later told := by
  intro before attempt after htold
  apply absurd _ (h attempt)
  rw [htold]
  exact List.mem_append_right _ List.mem_cons_self

theorem yields_of_not_isTurn (first later : TaskId) {told : List Event}
    (h : forall e, e ∈ told -> e.isTurn = false) : Yields first later told :=
  yields_of_not_mem fun _ hmem => nomatch h _ hmem

theorem Yields.append {first later : TaskId} {told more : List Event}
    (h : Yields first later told)
    (hmore : (exists e, e ∈ told ∧ e.Releases first) ∨ Yields first later more) :
    Yields first later (told ++ more) := by
  intro before attempt after heq
  rcases append_eq_split heq with ⟨between, htold, _⟩ | ⟨between, rfl, hrest⟩
  · exact h before attempt between htold
  · -- The turn comes in `more`.
    cases hmore with
    | inl hreleased =>
        rcases hreleased with ⟨e, he, hreleases⟩
        exact ⟨e, List.mem_append_left _ he, hreleases⟩
    | inr hmore =>
        rcases hmore between attempt after hrest with ⟨e, he, hreleases⟩
        exact ⟨e, List.mem_append_right _ he, hreleases⟩

end Event

namespace Lineup

variable {x y : Lineup} {told log : List Event}

/-!
# The order of the queue
-/

theorem Turn.ordered (h : Turn x y told) (hx : x.queue.Ordered) : y.queue.Ordered := by
  cases h with
  | submitted w _ _ _ _ _ _ hqueue =>
      cases hqueue with
      | inl hqueue => exact hqueue ▸ hx
      | inr hqueue => exact hqueue ▸ hx.enter w
  | left gone _ hqueue =>
      rw [hqueue]
      exact hx.sublist List.filter_sublist
  | started first _ hqueue =>
      rw [hqueue] at hx
      exact hx.sublist (List.sublist_append_right _ _)
  | again w _ hqueue =>
      rw [hqueue]
      exact hx.enter w

/-!
# The order of submission
-/

/-- A place is numbered by how many tasks were taken in before. -/
structure Numbered (log : List Event) (x : Lineup) : Prop where
  next : x.nextNumber = (log.filter Event.isQueued).length
  places : forall w, w ∈ x.places ->
    (log.filter Event.isQueued)[w.number]? = some (.queued w.id w.priority)

theorem Numbered.keeps (h : Numbered log x) (hkeeps : x.Keeps y)
    (htold : forall e, e ∈ told -> e.isQueued = false) : Numbered (log ++ told) y := by
  have hnone : told.filter Event.isQueued = [] := by
    apply List.filter_eq_nil_iff.mpr
    intro e he
    rw [htold e he]
    exact Bool.false_ne_true
  constructor
  case next =>
    rw [hkeeps.nextNumber, List.filter_append, hnone, List.append_nil]
    exact h.next
  case places =>
    intro w hw
    rw [List.filter_append, hnone, List.append_nil]
    exact h.places w (hkeeps.places.subset hw)

theorem isQueued_of_not_isTurn {e : Event} (h : e.isTurn = false) : e.isQueued = false := by
  cases e with
  | queued => cases h
  | _ => rfl

theorem Turn.numbered (h : Turn x y told) (hx : Numbered log x) :
    Numbered (log ++ told) y := by
  cases h with
  | submitted w rest _ hnumber _ hnext hplaces _ htold hrest =>
      have hone : told.filter Event.isQueued = [.queued w.id w.priority] := by
        have hnone : rest.filter Event.isQueued = [] := by
          apply List.filter_eq_nil_iff.mpr
          intro e he
          rw [isQueued_of_not_isTurn (hrest e he)]
          exact Bool.false_ne_true
        rw [htold, List.filter_cons_of_pos rfl, hnone]
      constructor
      case next =>
        rw [hnext, hx.next, List.filter_append, hone, List.length_append]
        rfl
      case places =>
        intro v hv
        rw [List.filter_append, hone]
        rw [hplaces, List.mem_append] at hv
        cases hv with
        | inl hv =>
            have hold := hx.places v hv
            have hlt := (List.getElem?_eq_some_iff.mp hold).1
            rw [List.getElem?_append_left hlt]
            exact hold
        | inr hv =>
            rw [List.mem_singleton.mp hv, hnumber, hx.next]
            exact List.getElem?_concat_length
  | left _ hkeeps _ _ htold =>
      exact hx.keeps hkeeps fun e he => isQueued_of_not_isTurn (htold e he)
  | started first hkeeps _ htold =>
      apply hx.keeps hkeeps
      intro e he
      rw [htold] at he
      rcases List.mem_map.mp he with ⟨_, _, rfl⟩
      rfl
  | again _ hkeeps _ htold =>
      exact hx.keeps hkeeps fun e he => isQueued_of_not_isTurn (htold e he)

/-!
# One waits ahead of another
-/

/-- A task waits, and the task with `id` has a place behind it, where it may wait or not. -/
structure Precedes (w : Waiting) (id : TaskId) (x : Lineup) : Prop where
  waits : w ∈ x.queue
  behind : forall v, v ∈ x.places -> v.id = id -> w.Ahead v
  issued : exists n, n < x.ids.issued ∧ id = ⟨x.ids.nth n⟩

theorem Precedes.keeps {w : Waiting} {id : TaskId} (h : Precedes w id x)
    (hkeeps : x.Keeps y) (hwaits : w ∈ y.queue) : Precedes w id y where
  waits := hwaits
  behind := fun v hv => h.behind v (hkeeps.places.subset hv)
  issued := hkeeps.ids ▸ h.issued

/-- When the first ones are started, nobody is among them without those ahead of him. -/
theorem Precedes.yields {w : Waiting} {id : TaskId} (h : Precedes w id x)
    (hordered : x.queue.Ordered) (hplaces : forall v, v ∈ x.queue -> v ∈ x.places)
    {first : List (Waiting × Nat)} {rest : Queue}
    (hqueue : x.queue = first.map Prod.fst ++ rest) :
    Event.Yields w.id id (first.map fun v => .started v.1.id v.2) := by
  intro before attempt after htold
  rcases List.map_eq_append_iff.mp htold with ⟨front, back, rfl, rfl, hback⟩
  rcases List.map_eq_cons_iff.mp hback with ⟨v, back, rfl, hv, rfl⟩
  have hid : v.1.id = id := (Event.started.inj hv).1
  have hcut : x.queue = front.map Prod.fst ++ v.1 :: (back.map Prod.fst ++ rest) := by
    rw [hqueue, List.map_append, List.map_cons, List.append_assoc]
    rfl
  have hmem : v.1 ∈ x.queue := by
    rw [hcut]
    exact List.mem_append_right _ List.mem_cons_self
  have hahead : w.Ahead v.1 := h.behind v.1 (hplaces v.1 hmem) hid
  have hwaits := h.waits
  rw [hcut] at hwaits hordered
  cases List.mem_append.mp hwaits with
  | inl hfront =>
      rcases List.mem_map.mp hfront with ⟨u, hu, rfl⟩
      exact ⟨_, List.mem_map_of_mem hu, Or.inr ⟨u.2, rfl⟩⟩
  | inr hback => exact absurd hahead (hordered.not_ahead hback)

/-- A task that waits ahead of another one goes on to do so, or it is released; and it is
before the turn of the other one comes. -/
theorem Turn.precedes (h : Turn x y told) {w : Waiting} {id : TaskId}
    (hw : Precedes w id x) (hinjective : Function.Injective x.ids.nth)
    (hordered : x.queue.Ordered) (hplaces : forall v, v ∈ x.queue -> v ∈ x.places) :
    Event.Yields w.id id told ∧
      (Precedes w id y ∨ exists e, e ∈ told ∧ e.Releases w.id) := by
  cases h with
  | submitted v rest hid _ hids _ hplaces' hqueue htold hrest =>
      have hnone : forall attempt, .started id attempt ∉ told := by
        intro attempt hmem
        rw [htold] at hmem
        cases List.mem_cons.mp hmem with
        | inl heq => exact nomatch heq
        | inr hmem => exact nomatch hrest _ hmem
      refine ⟨Event.yields_of_not_mem hnone, Or.inl ⟨?_, ?_, ?_⟩⟩
      · cases hqueue with
        | inl hqueue => exact hqueue ▸ hw.waits
        | inr hqueue => exact hqueue ▸ Queue.mem_enter.mpr (Or.inr hw.waits)
      · intro u hu huid
        rw [hplaces', List.mem_append] at hu
        cases hu with
        | inl hu => exact hw.behind u hu huid
        | inr hu =>
            -- The new id is none of those that were issued before.
            rcases hw.issued with ⟨n, hn, heq⟩
            rw [List.mem_singleton.mp hu, hid, heq] at huid
            have hnth := hinjective (congrArg TaskId.text huid)
            exact absurd hn (hnth ▸ Nat.lt_irrefl _)
      · rcases hw.issued with ⟨n, hn, heq⟩
        rw [hids]
        exact ⟨n, Nat.lt_succ_of_lt hn, heq⟩
  | left gone hkeeps hqueue hcancelled htold =>
      refine ⟨Event.yields_of_not_isTurn _ _ htold, ?_⟩
      by_cases hgone : w.id ∈ gone
      · exact Or.inr ⟨_, hcancelled w.id hgone, Or.inl rfl⟩
      · apply Or.inl
        apply hw.keeps hkeeps
        rw [hqueue]
        exact List.mem_filter.mpr ⟨hw.waits, decide_eq_true hgone⟩
  | started first hkeeps hqueue htold =>
      rw [htold]
      refine ⟨hw.yields hordered hplaces hqueue, ?_⟩
      have hwaits := hw.waits
      rw [hqueue] at hwaits
      cases List.mem_append.mp hwaits with
      | inl hfirst =>
          rcases List.mem_map.mp hfirst with ⟨u, hu, rfl⟩
          exact Or.inr ⟨_, List.mem_map_of_mem hu, Or.inr ⟨u.2, rfl⟩⟩
      | inr hwaits => exact Or.inl (hw.keeps hkeeps hwaits)
  | again v hkeeps hqueue htold =>
      refine ⟨Event.yields_of_not_isTurn _ _ htold, Or.inl (hw.keeps hkeeps ?_)⟩
      rw [hqueue]
      exact Queue.mem_enter.mpr (Or.inr hw.waits)

end Lineup

namespace Course

variable {c : Coding i o} {x : Course p i o}

/-!
# Courses
-/

/-- The tasks that wait are in order, and their places say when they were submitted. -/
structure Orderly (x : Course p i o) : Prop where
  consistent : x.state.Consistent
  supplied : x.state.Supplied
  ordered : x.state.queue.Ordered
  numbered : x.state.lineup.Numbered x.log

theorem Orderly.exists_turn (h : x.Orderly) (m : Moment p i o) :
    exists told, (x.act c m).log = x.log ++ told ∧
      Lineup.Turn x.state.lineup (x.act c m).state.lineup told := by
  by_cases hm : m.action = .deliver
  · rcases m with ⟨now, action⟩
    cases hm
    refine ⟨[], rfl, Lineup.Turn.left [] ⟨rfl, rfl, List.Sublist.refl _⟩ ?_ ?_ ?_⟩
    · exact (List.filter_eq_self.mpr fun _ _ => rfl).symm
    · exact fun _ hid => nomatch hid
    · exact fun _ he => nomatch he
  · rcases h.consistent.turns_act (c := c) h.supplied h.ordered hm with ⟨told, hevents, hturn⟩
    have hlog : (x.state.act c m).events = x.state.events ++ told := hevents
    refine ⟨told, ?_, ?_⟩
    · rw [log_act_of_ne hm, hlog, ← List.append_assoc]
      rfl
    · rw [state_act]
      exact hturn

theorem Orderly.act (h : x.Orderly) (m : Moment p i o) : (x.act c m).Orderly := by
  rcases h.exists_turn (c := c) m with ⟨told, hlog, hturn⟩
  constructor
  case consistent =>
    rw [state_act]
    exact h.consistent.act m
  case supplied =>
    rw [state_act]
    exact h.supplied.act m
  case ordered => exact hturn.ordered h.ordered
  case numbered =>
    rw [hlog]
    exact hturn.numbered h.numbered

theorem Orderly.run (h : x.Orderly) (ms : List (Moment p i o)) : (x.run c ms).Orderly := by
  induction ms generalizing x with
  | nil => exact h
  | cons m ms ih => exact ih (h.act m)

theorem orderly_start (options : Options) (cacheOptions : Cache.Options) {ids : IdSource}
    (hids : Function.Injective ids.nth) :
    (start (State.new options cacheOptions ids).state : Course p i o).Orderly where
  consistent := State.consistent_new options cacheOptions hids
  supplied := fun _ => ⟨rfl, rfl⟩
  ordered := List.Pairwise.nil
  numbered := ⟨rfl, fun _ hw => nomatch hw⟩

theorem Orderly.exists_log_eq (h : x.Orderly) (ms : List (Moment p i o)) :
    exists told, (x.run c ms).log = x.log ++ told := by
  induction ms generalizing x with
  | nil => exact ⟨[], (List.append_nil _).symm⟩
  | cons m ms ih =>
      rcases h.exists_turn (c := c) m with ⟨told, hlog, _⟩
      rcases ih (h.act (c := c) m) with ⟨more, hmore⟩
      refine ⟨told ++ more, ?_⟩
      rw [← List.append_assoc, ← hlog]
      exact hmore

theorem Orderly.yields_run (h : x.Orderly) {w : Waiting} {id : TaskId}
    (hw : x.state.lineup.Precedes w id) (ms : List (Moment p i o)) :
    exists told, (x.run c ms).log = x.log ++ told ∧ Event.Yields w.id id told := by
  -- One waits ahead of the other until it is released, and then nothing is left to show.
  induction ms generalizing x with
  | nil => exact ⟨[], (List.append_nil _).symm, Event.yields_of_not_mem fun _ he => nomatch he⟩
  | cons m ms ih =>
      rcases h.exists_turn (c := c) m with ⟨told, hlog, hturn⟩
      have hplaces : forall v, v ∈ x.state.lineup.queue -> v ∈ x.state.lineup.places := by
        intro v hv
        rcases h.consistent.mem_queue.mp hv with ⟨r, hr, _, rfl⟩
        exact List.mem_map_of_mem hr
      rcases hturn.precedes hw h.consistent.injective h.ordered hplaces with ⟨hyields, hnext⟩
      have happend : forall more, (x.run c (m :: ms)).log = (x.act c m).log ++ more ->
          (x.run c (m :: ms)).log = x.log ++ (told ++ more) := by
        intro more hmore
        rw [hmore, hlog, List.append_assoc]
      cases hnext with
      | inl hw =>
          rcases ih (h.act m) hw with ⟨more, hmore, hyields'⟩
          exact ⟨told ++ more, happend more hmore, hyields.append (Or.inr hyields')⟩
      | inr hreleased =>
          rcases (h.act (c := c) m).exists_log_eq (c := c) ms with ⟨more, hmore⟩
          exact ⟨told ++ more, happend more hmore, hyields.append (Or.inl hreleased)⟩

/-- Whatever happens to a new scheduler, in whatever order: unless it is paused, a dispatch
starts the first of those that wait, by priority and then by submission, as many as there
are free slots, and tells so in this order.  The number of a task is its place in the
order of submission, also when it waits again.  And of two tasks that wait, the one that
is behind is not started before the other was started or cancelled. -/
theorem precedence_run (c : Coding i o) (options : Options) (cacheOptions : Cache.Options)
    {ids : IdSource} (hids : Function.Injective ids.nth) (ms : List (Moment p i o)) :
    let x := (start (State.new options cacheOptions ids).state).run c ms
    let s := x.state
    (s.paused = false -> forall now, exists first rest, s.Line (first ++ rest) ∧
        first.length = min s.queue.length (s.options.maxWorkers - s.active) ∧
        State.Starts s (s.dispatch now).1 (s.dispatch now).2 now first rest) ∧
      (forall r, r ∈ s.records -> (x.log.filter Event.isQueued)[r.number]? =
        some (.queued r.task.id r.task.priority)) ∧
      (forall a b, a ∈ s.records -> b ∈ s.records -> a.task.status = .pending ->
        b.task.status = .pending -> a.waiting.Ahead b.waiting -> forall later,
          exists told, (x.run c later).log = x.log ++ told ∧
            Event.Yields a.task.id b.task.id told) := by
  intro x s
  have h : x.Orderly := (orderly_start options cacheOptions hids).run ms
  refine ⟨?_, ?_, ?_⟩
  · intro hpaused now
    rcases h.consistent.exists_line h.ordered with ⟨line, hline⟩
    have hroom : s.room = s.options.maxWorkers - s.active := by
      unfold State.room
      rw [hpaused]
      rfl
    refine ⟨line.take s.room, line.drop s.room, ?_, ?_, ?_⟩
    · rw [List.take_append_drop]
      exact hline
    · rw [List.length_take, hroom, hline.queue, List.length_map]
      exact Nat.min_comm _ _
    · exact hline.starts h.consistent h.supplied now
  · intro r hr
    exact h.numbered.places r.waiting (List.mem_map_of_mem hr)
  · intro a b ha hb hpending _ hahead later
    apply h.yields_run (w := a.waiting)
    constructor
    case waits => exact h.consistent.mem_queue.mpr ⟨a, ha, hpending, rfl⟩
    case behind =>
      intro v hv hid
      rcases List.mem_map.mp hv with ⟨r, hr, rfl⟩
      rw [Index.eq_of_id_eq h.consistent.ids_nodup hr hb hid]
      exact hahead
    case issued => exact h.consistent.issued _ (List.mem_map_of_mem hb)

/-- One slot: the first task has failed once and waits again, behind a task of a higher
priority but ahead of one that was submitted while it ran. -/
theorem precedence_retried :
    let c : Coding String String := { input := fun _ => none, output := .text }
    let least : Options := { Options.forWorkers 1 with minWorkers := 0, maxWorkers := 0 }
    let ms : List (Moment Unit String String) :=
      [⟨0, .setProcessor ()⟩, ⟨1, .submit "a" 0⟩, ⟨1, .dispatch⟩, ⟨2, .submit "b" 0⟩,
        ⟨2, .submit "c" 5⟩, ⟨3, .finish 0 (.error (.execution "no")) .zero⟩]
    let later : List (Moment Unit String String) :=
      [⟨3, .dispatch⟩, ⟨4, .finish 0 (.ok "c") .zero⟩, ⟨4, .dispatch⟩,
        ⟨5, .finish 0 (.ok "a") .zero⟩, ⟨5, .dispatch⟩]
    let x := (start (State.new least .default (.sequential "task")).state).run c ms
    (exists told, (x.run c later).log = x.log ++ told ∧
        Event.Yields ⟨"task-1"⟩ ⟨"task-2"⟩ told) ∧
      x.state.queue.map Waiting.number = [2, 0, 1] ∧
      (x.run c later).log.filter Event.isStarted =
        [.started ⟨"task-1"⟩ 1, .started ⟨"task-3"⟩ 1, .started ⟨"task-1"⟩ 2,
          .started ⟨"task-2"⟩ 1] := by
  intro c least ms later x
  let a := x.state.records.get ⟨0, by decide +kernel⟩
  let b := x.state.records.get ⟨1, by decide +kernel⟩
  have hprecedence := precedence_run c least .default (State.injective_sequential "task") ms
  have hyields := hprecedence.2.2 a b (List.get_mem _ _) (List.get_mem _ _)
    (by decide +kernel) (by decide +kernel) (Or.inr (by decide +kernel)) later
  have hfirst : a.task.id = ⟨"task-1"⟩ := by decide +kernel
  have hsecond : b.task.id = ⟨"task-2"⟩ := by decide +kernel
  rw [hfirst, hsecond] at hyields
  exact ⟨hyields, by decide +kernel⟩

end Course
end Scheduler
end CodeSurvey
