import CodeSurvey.Proofs.Scheduler.EventWords
import CodeSurvey.Proofs.Scheduler.Index

/-!
# The chronicle of a scheduler

The log of all events says what the index and the counters have to hold.  What happens to
a task is told at once, in one entry of the log.
-/

namespace CodeSurvey
namespace Scheduler

namespace Event

theorem about_append (id : TaskId) (events more : List Event) :
    about id (events ++ more) = about id events ++ about id more :=
  List.filter_append _ _

theorem about_eq_nil {id : TaskId} {events : List Event}
    (h : forall e, e ∈ events -> e.task? ≠ some id) : about id events = [] :=
  List.filter_eq_nil_iff.mpr fun e he heq => h e he (of_decide_eq_true heq)

theorem about_append_self {id : TaskId} {events : List Event} (log : List Event)
    (h : forall e, e ∈ events -> e.task? = some id) :
    about id (log ++ events) = about id log ++ events := by
  have hself : about id events = events :=
    List.filter_eq_self.mpr fun e he => decide_eq_true (h e he)
  rw [about_append, hself]

theorem about_append_of_ne {id other : TaskId} {events : List Event} (log : List Event)
    (h : forall e, e ∈ events -> e.task? = some other) (hne : other ≠ id) :
    about id (log ++ events) = about id log := by
  have hnil : about id events = [] := by
    apply about_eq_nil
    intro e he heq
    exact hne (Option.some.inj ((h e he).symm.trans heq))
  rw [about_append, hnil, List.append_nil]

end Event

/-- `log` tells how the index and the counters came about, with `cleared` records gone. -/
structure Chronicle (graceElapsed : Prop) (ids : IdSource) (closed : Bool)
    (records : List (Record i o)) (retries hits cleared : Nat) (log : List Event) :
    Prop where
  ids_nodup : (Index.ids records).Nodup
  grace : closed = true -> graceElapsed
  indexed : forall r, r ∈ records ->
    Told graceElapsed r.task.id r.task.status r.task.retries (Event.about r.task.id log)
  gone : forall id, id ∉ Index.ids records ->
    Event.about id log = [] ∨
      exists status n, Told graceElapsed id status n (Event.about id log)
  fresh : forall n, ids.issued ≤ n -> Event.about ⟨ids.nth n⟩ log = []
  retries_eq : retries = log.countP Event.isRetrying
  hits_eq : hits = log.countP Event.isHit
  total_eq : records.length + cleared = log.countP Event.isQueued

namespace Chronicle

variable {graceElapsed : Prop} {ids : IdSource} {closed : Bool}
  {records : List (Record i o)} {retries hits cleared : Nat} {log : List Event}

theorem empty (graceElapsed : Prop) (ids : IdSource) :
    Chronicle graceElapsed ids false ([] : List (Record i o)) 0 0 0 [] where
  ids_nodup := List.nodup_nil
  grace := fun h => absurd h Bool.false_ne_true
  indexed := fun _ h => nomatch h
  gone := fun _ _ => Or.inl rfl
  fresh := fun _ _ => rfl
  retries_eq := rfl
  hits_eq := rfl
  total_eq := rfl

/-- What is told of a task, whether or not its record is still there. -/
theorem told (h : Chronicle graceElapsed ids closed records retries hits cleared log)
    (id : TaskId) :
    Event.about id log = [] ∨
      exists status n, Told graceElapsed id status n (Event.about id log) := by
  by_cases hid : id ∈ Index.ids records
  · rcases List.mem_map.mp hid with ⟨r, hr, rfl⟩
    exact Or.inr ⟨_, _, h.indexed r hr⟩
  · exact h.gone id hid

theorem move (h : Chronicle graceElapsed ids closed records retries hits cleared log)
    {r : Record i o} (hr : r ∈ records) {f : Task i o -> Task i o}
    (hid : forall t, (f t).id = t.id) {e : Event} (he : e.task? = some r.task.id)
    (hqueued : e.isQueued = false)
    (htold : forall events,
      Told graceElapsed r.task.id r.task.status r.task.retries events ->
        Told graceElapsed r.task.id (f r.task).status (f r.task).retries (events ++ [e])) :
    Chronicle graceElapsed ids closed (Index.update records r.task.id f)
      (retries + [e].countP Event.isRetrying) (hits + [e].countP Event.isHit) cleared
      (log ++ [e]) := by
  have hall : forall x, x ∈ [e] -> x.task? = some r.task.id :=
    fun x hx => List.mem_singleton.mp hx ▸ he
  have hother : forall id, r.task.id ≠ id ->
      Event.about id (log ++ [e]) = Event.about id log :=
    fun _ => Event.about_append_of_ne log hall
  constructor
  case ids_nodup => rw [Index.ids_update hid]; exact h.ids_nodup
  case grace => exact h.grace
  case indexed =>
    intro q hq
    rcases Index.mem_update.mp hq with ⟨q, hmem, rfl⟩
    split
    next heq =>
      have hself := Index.eq_of_id_eq h.ids_nodup hmem hr heq
      subst hself
      show Told graceElapsed (f q.task).id _ _ (Event.about (f q.task).id _)
      rw [hid, Event.about_append_self log hall]
      exact htold _ (h.indexed q hmem)
    next hne =>
      rw [hother _ fun heq => hne heq.symm]
      exact h.indexed q hmem
  case gone =>
    intro id hnot
    rw [Index.ids_update hid] at hnot
    have hne : r.task.id ≠ id := fun heq => hnot (heq ▸ List.mem_map_of_mem hr)
    rw [hother id hne]
    exact h.gone id hnot
  case fresh =>
    intro n hn
    -- Something was told of `r`, but nothing of an id that was not given out.
    have hne : r.task.id ≠ ⟨ids.nth n⟩ := by
      intro heq
      have htold := h.indexed r hr
      rw [heq, h.fresh n hn] at htold
      exact htold.ne_nil rfl
    rw [hother _ hne]
    exact h.fresh n hn
  case retries_eq => rw [List.countP_append, h.retries_eq]
  case hits_eq => rw [List.countP_append, h.hits_eq]
  case total_eq =>
    have hcount : [e].countP Event.isQueued = 0 := by
      simp [hqueued]
    rw [List.countP_append, hcount, ← h.total_eq]
    unfold Index.update
    rw [List.length_map]
    rfl

theorem tell (h : Chronicle graceElapsed ids closed records retries hits cleared log)
    {e : Event} (he : e.task? = none) :
    Chronicle graceElapsed ids closed records retries hits cleared (log ++ [e]) := by
  have hsame : forall id, Event.about id (log ++ [e]) = Event.about id log := by
    intro id
    have hnone : Event.about id [e] = [] := by
      apply Event.about_eq_nil
      intro x hx heq
      rw [List.mem_singleton.mp hx, he] at heq
      exact nomatch heq
    rw [Event.about_append, hnone, List.append_nil]
  have hcounts : [e].countP Event.isRetrying = 0 ∧ [e].countP Event.isHit = 0 ∧
      [e].countP Event.isQueued = 0 := by
    cases e with
    | idle active => exact ⟨rfl, rfl, rfl⟩
    | drained => exact ⟨rfl, rfl, rfl⟩
    | _ => exact nomatch he
  constructor
  case ids_nodup => exact h.ids_nodup
  case grace => exact h.grace
  case indexed => intro r hr; rw [hsame]; exact h.indexed r hr
  case gone => intro id hid; rw [hsame]; exact h.gone id hid
  case fresh => intro n hn; rw [hsame]; exact h.fresh n hn
  case retries_eq => rw [List.countP_append, hcounts.1]; exact h.retries_eq
  case hits_eq => rw [List.countP_append, hcounts.2.1]; exact h.hits_eq
  case total_eq => rw [List.countP_append, hcounts.2.2]; exact h.total_eq

theorem add (h : Chronicle graceElapsed ids closed records retries hits cleared log)
    (hids : Function.Injective ids.nth) (hnew : ids.next.1 ∉ Index.ids records)
    {r : Record i o} (hid : r.task.id = ids.next.1) (events : List Event)
    (hall : forall e, e ∈ events -> e.task? = some ids.next.1)
    (htold : Told graceElapsed ids.next.1 r.task.status r.task.retries events)
    (hqueued : events.countP Event.isQueued = 1) :
    Chronicle graceElapsed ids.next.2 closed (records ++ [r])
      (retries + events.countP Event.isRetrying) (hits + events.countP Event.isHit) cleared
      (log ++ events) := by
  have hother : forall id, ids.next.1 ≠ id ->
      Event.about id (log ++ events) = Event.about id log :=
    fun _ => Event.about_append_of_ne log hall
  have hself : Event.about ids.next.1 (log ++ events) = events := by
    have hfresh : Event.about ids.next.1 log = [] := h.fresh ids.issued (Nat.le_refl _)
    rw [Event.about_append_self log hall, hfresh, List.nil_append]
  constructor
  case ids_nodup => exact Index.nodup_ids_append h.ids_nodup (hid ▸ hnew)
  case grace => exact h.grace
  case indexed =>
    intro q hq
    cases List.mem_append.mp hq with
    | inl hq =>
        have hne : ids.next.1 ≠ q.task.id :=
          fun heq => hnew (heq ▸ List.mem_map_of_mem hq)
        rw [hother _ hne]
        exact h.indexed q hq
    | inr hq =>
        rw [List.mem_singleton.mp hq, hid, hself]
        exact htold
  case gone =>
    intro id hnot
    rw [Index.ids_append, List.mem_append, not_or] at hnot
    have hne : ids.next.1 ≠ id := by
      intro heq
      exact hnot.2 (List.mem_singleton.mpr (heq.symm.trans hid.symm))
    rw [hother id hne]
    exact h.gone id hnot.1
  case fresh =>
    intro n hn
    have hne : ids.next.1 ≠ ⟨ids.nth n⟩ := by
      intro heq
      have hnth := hids (congrArg TaskId.text heq)
      exact absurd hn (hnth ▸ Nat.not_succ_le_self _)
    exact (hother _ hne).trans (h.fresh n (Nat.le_of_succ_le hn))
  case retries_eq => rw [List.countP_append, h.retries_eq]
  case hits_eq => rw [List.countP_append, h.hits_eq]
  case total_eq =>
    rw [List.countP_append, hqueued, ← h.total_eq, List.length_append]
    exact Nat.add_right_comm _ _ _

theorem clear (h : Chronicle graceElapsed ids closed records retries hits cleared log)
    (keep : Record i o -> Bool) :
    Chronicle graceElapsed ids closed (records.filter keep) retries hits
      (cleared + (records.length - (records.filter keep).length)) log where
  ids_nodup := (List.filter_sublist.map _).nodup h.ids_nodup
  grace := h.grace
  indexed := fun r hr => h.indexed r (List.mem_of_mem_filter hr)
  gone := fun id _ => h.told id
  fresh := h.fresh
  retries_eq := h.retries_eq
  hits_eq := h.hits_eq
  total_eq := by
    have hle := List.length_filter_le keep records
    rw [← h.total_eq]
    omega

theorem mono (h : Chronicle graceElapsed ids closed records retries hits cleared log)
    {graceElapsed' : Prop} (himp : graceElapsed -> graceElapsed') {closed' : Bool}
    (hgrace : closed' = true -> graceElapsed') :
    Chronicle graceElapsed' ids closed' records retries hits cleared log where
  ids_nodup := h.ids_nodup
  grace := hgrace
  indexed := fun r hr => (h.indexed r hr).mono himp
  gone := by
    intro id hid
    cases h.gone id hid with
    | inl hnil => exact Or.inl hnil
    | inr htold =>
        rcases htold with ⟨status, n, htold⟩
        exact Or.inr ⟨status, n, htold.mono himp⟩
  fresh := h.fresh
  retries_eq := h.retries_eq
  hits_eq := h.hits_eq
  total_eq := h.total_eq

end Chronicle
end Scheduler
end CodeSurvey
