import CodeSurvey.Proofs.Scheduler.Outcomes

/-!
# Values on their way to the cache

An attempt that succeeds completes its task at once, while its value is only sent on its way
to the cache, with the key of the task.  There it stays until it is stored, and other actions
may come before that.  A task has an attempt that succeeds only once, so a value on its way
is known by the id of its task.
-/

namespace CodeSurvey
namespace Scheduler

/-- A value that is on its way is put into the cache. -/
def Moment.Puts (m : Moment p i o) (s : State p i o) (y : Yield o) : Prop :=
  exists place, m.action = .store place ∧ s.yields[place]? = some y

theorem Moment.Puts.mem {m : Moment p i o} {s : State p i o} {y : Yield o}
    (h : m.Puts s y) : y ∈ s.yields := by
  rcases h with ⟨place, _, hplace⟩
  exact List.mem_of_getElem? hplace

/-- An attempt succeeds, and its value is on its way from then on. -/
def Moment.Yields (m : Moment p i o) (s : State p i o) (y : Yield o) : Prop :=
  s.options.enableCaching = true ∧ m.EndsWith s y.id (.ok y.value) ∧
    exists r, s.record? y.id = some r ∧ r.cacheKey = some y.key

namespace State

variable {s : State p i o} {c : Coding i o} {m : Moment p i o} {y : Yield o}

/-!
# Actions
-/

theorem yield?_eq_some {r : Record i o} {outcome : Except Failure o} {y : Yield o} :
    s.yield? r outcome = some y ↔
      s.options.enableCaching = true ∧ r.task.id = y.id ∧ r.cacheKey = some y.key ∧
        outcome = .ok y.value := by
  unfold yield?
  constructor
  · intro h
    split at h
    next hcaching hkey =>
      cases h
      exact ⟨hcaching, rfl, hkey, rfl⟩
    next => cases h
  · rintro ⟨hcaching, hid, hkey, rfl⟩
    rw [hcaching, hkey]
    simp only
    rw [hid]

theorem Consistent.yields_of_yields (h : s.Consistent) (c : Coding i o) {y : Yield o}
    (hm : m.Yields s y) : (s.act c m).yields = s.yields ++ [y] := by
  rcases m with ⟨now, action⟩
  rcases hm with ⟨hcaching, ⟨place, found, elapsed, a, rfl, hplace, hid, houtcome⟩, r, hrecord,
    hkey⟩
  rcases h.exists_finished_eq (List.mem_of_getElem? hplace) now (a.outcome found) elapsed with
    ⟨q, hq, _, hqid, _, hfinished⟩
  rw [hid, hrecord] at hq
  cases hq
  have hyield : s.yield? r (a.outcome found) = some y :=
    yield?_eq_some.mpr ⟨hcaching, hqid.trans hid, hkey, houtcome⟩
  rw [act_finish c hplace, hfinished, hyield]
  rfl

theorem yields_submit (c : Coding i o) (s : State p i o) (now : Int) (input : i)
    (priority : Int) : (s.submit c now input priority).state.yields = s.yields := by
  rcases exists_submit_eq c s now input priority with
    ⟨cache, ⟨_, _, _, hstate⟩ | ⟨_, _, _, hstate⟩⟩
  · rw [hstate]
  · rw [hstate]
    unfold accept
    simp only
    split
    · rfl
    · rfl

theorem yields_store (c : Coding i o) (s : State p i o) (now : Int) (place : Nat) :
    (s.act c ⟨now, .store place⟩).yields = s.yields.eraseIdx place := by
  unfold act
  simp only
  unfold store
  split
  next y _ => rfl
  next hnone => exact (List.eraseIdx_of_length_le (List.getElem?_eq_none_iff.mp hnone)).symm

theorem Consistent.yields_act (h : s.Consistent) (c : Coding i o) (m : Moment p i o) :
    (s.act c m).yields = s.yields ∨
      (exists y, m.Yields s y ∧ (s.act c m).yields = s.yields ++ [y]) ∨
      exists place, m.action = .store place ∧
        (s.act c m).yields = s.yields.eraseIdx place := by
  cases hmoves : m.action.movesTasks with
  | true =>
      rcases exists_act_eq c s hmoves with ⟨_, _, _, _, _, _, hact⟩
      rw [hact]
      exact Or.inl rfl
  | false =>
      rcases m with ⟨now, action⟩
      cases action with
      | submit input priority => exact Or.inl (yields_submit c s now input priority)
      | beginShutdown =>
          have hact : s.act c ⟨now, .beginShutdown⟩ = _ := s.beginShutdown_eq
          rw [hact]
          exact Or.inl rfl
      | finish place found elapsed =>
          cases hplace : s.inFlight[place]? with
          | none =>
              unfold State.act
              simp only
              rw [hplace]
              exact Or.inl rfl
          | some a =>
              rcases h.exists_finished_eq (List.mem_of_getElem? hplace) now (a.outcome found)
                elapsed with ⟨r, hrecord, _, hid, _, hfinished⟩
              rw [act_finish c hplace, hfinished]
              cases hyield : s.yield? r (a.outcome found) with
              | none => exact Or.inl (List.append_nil _)
              | some y =>
                  rcases yield?_eq_some.mp hyield with ⟨hcaching, hyid, hkey, houtcome⟩
                  have hsame : a.id = y.id := hid.symm.trans hyid
                  refine Or.inr (Or.inl ⟨y, ⟨hcaching, ?_, r, hsame ▸ hrecord, hkey⟩, rfl⟩)
                  exact ⟨place, found, elapsed, a, rfl, hplace, hsame, houtcome⟩
      | store place => exact Or.inr (Or.inr ⟨place, rfl, yields_store c s now place⟩)
      | pause => exact Or.inl rfl
      | resume => exact Or.inl rfl
      | configure options => exact Or.inl rfl
      | setProcessor processor => exact Or.inl rfl
      | clearCache => exact Or.inl rfl
      | closeRetries => exact Or.inl rfl
      | _ => cases hmoves

/-!
# Runs
-/

/-- A value on its way was there before, or a success of the run yielded it. -/
theorem Consistent.exists_yields (h : s.Consistent) {ms : List (Moment p i o)}
    (hy : y ∈ (s.run c ms).yields) :
    y ∈ s.yields ∨
      exists before m after, ms = before ++ m :: after ∧ m.Yields (s.run c before) y := by
  induction ms using List.reverseRecOn with
  | nil => exact Or.inl hy
  | append_singleton ms m ih =>
      have hearlier : y ∈ (s.run c ms).yields -> y ∈ s.yields ∨
          exists before n after, ms ++ [m] = before ++ n :: after ∧
            n.Yields (s.run c before) y := by
        intro hwas
        rcases ih hwas with hwas | ⟨before, n, after, rfl, hyields⟩
        · exact Or.inl hwas
        · exact Or.inr ⟨before, n, after ++ [m], by simp, hyields⟩
      rw [run_concat] at hy
      rcases (h.run ms).yields_act c m with hsame | ⟨y', hyields, hjoined⟩ | ⟨place, _, hleft⟩
      · exact hearlier (hsame ▸ hy)
      · rw [hjoined, List.mem_append, List.mem_singleton] at hy
        rcases hy with hwas | rfl
        · exact hearlier hwas
        · exact Or.inr ⟨ms, m, [], rfl, hyields⟩
      · rw [hleft] at hy
        exact hearlier (List.mem_of_mem_eraseIdx hy)

/-- A value on its way is still there after a run, or it was stored. -/
theorem Consistent.kept_or_puts (h : s.Consistent) (ms : List (Moment p i o))
    (hy : y ∈ s.yields) :
    y ∈ (s.run c ms).yields ∨
      exists before m after, ms = before ++ m :: after ∧ m.Puts (s.run c before) y := by
  induction ms using List.reverseRecOn with
  | nil => exact Or.inl hy
  | append_singleton ms m ih =>
      rcases ih with hwas | ⟨before, n, after, rfl, hputs⟩
      · rw [run_concat]
        rcases (h.run ms).yields_act c m with hsame | ⟨y', _, hjoined⟩ | ⟨place, haction, hleft⟩
        · exact Or.inl (hsame ▸ hwas)
        · exact Or.inl (hjoined ▸ List.mem_append_left _ hwas)
        · rcases List.mem_iff_getElem?.mp hwas with ⟨index, hindex⟩
          by_cases hplace : index = place
          · subst hplace
            exact Or.inr ⟨ms, m, [], rfl, index, haction, hindex⟩
          · rw [hleft]
            exact Or.inl (List.mem_eraseIdx_iff_getElem?.mpr ⟨index, hplace, hindex⟩)
      · exact Or.inr ⟨before, n, after ++ [m], by simp, hputs⟩

/-!
# Tasks of the values
-/

theorem Consistent.settled_of_endsWith_ok (h : s.Consistent) (c : Coding i o) {id : TaskId}
    {value : o} (hends : m.EndsWith s id (.ok value)) : (s.act c m).Settled id := by
  have houtcome := outcome?_eq_some.mpr hends
  rcases h.exists_running_of_endsWith hends with ⟨task, htask, hrunning⟩
  rcases h.task?_act c m id with ⟨hnone, _⟩ | ⟨before, after, hbefore, hafter, hmoves⟩ |
    ⟨before, hbefore, hterminal, _, _⟩
  · cases htask.symm.trans hnone
  · cases htask.symm.trans hbefore
    have hid : task.id = id := by
      rcases Option.map_eq_some_iff.mp htask with ⟨r, hrecord, rfl⟩
      exact id_of_record? hrecord
    have hother : forall error, ¬ m.EndsWith s task.id (.error error) := by
      intro error hfails
      cases houtcome.symm.trans (hid ▸ outcome?_eq_some.mpr hfails)
    have hterminal : after.status.isTerminal = true := by
      cases hmoves with
      | stay => exact absurd hrunning (h.not_running_of_endsWith c hends hafter)
      | start _ hpending => cases hrunning.symm.trans hpending
      | cancel _ hpending => cases hrunning.symm.trans hpending
      | succeed _ _ => rfl
      | retry hfails _ _ _ => exact absurd hfails (hother _)
      | giveUp _ _ _ _ => rfl
      | fail _ _ _ => rfl
    exact (h.act m).settled hafter hterminal
  · cases htask.symm.trans hbefore
    exact absurd hrunning (Status.ne_running_of_isTerminal hterminal)

theorem Consistent.not_endsWith_of_settled (h : s.Consistent) {id : TaskId}
    (hsettled : s.Settled id) {outcome : Except Failure o} : ¬ m.EndsWith s id outcome := by
  intro hends
  rcases h.exists_running_of_endsWith hends with ⟨task, htask, hrunning⟩
  exact Status.ne_running_of_isTerminal (hsettled.ended task htask) hrunning

/-- The tasks of all values on their way have come to their end. -/
def Delivering (s : State p i o) : Prop :=
  forall y, y ∈ s.yields -> s.Settled y.id

theorem Delivering.act (h : s.Delivering) (hs : s.Consistent) (m : Moment p i o) :
    (s.act c m).Delivering := by
  intro y hy
  rcases hs.yields_act c m with hsame | ⟨y', hyields, hjoined⟩ | ⟨place, _, hleft⟩
  · exact (h y (hsame ▸ hy)).act hs m
  · rw [hjoined, List.mem_append, List.mem_singleton] at hy
    rcases hy with hwas | rfl
    · exact (h y hwas).act hs m
    · exact hs.settled_of_endsWith_ok c hyields.2.1
  · rw [hleft] at hy
    exact (h y (List.mem_of_mem_eraseIdx hy)).act hs m

theorem Delivering.run (h : s.Delivering) (hs : s.Consistent) (ms : List (Moment p i o)) :
    (s.run c ms).Delivering :=
  (run_induction (motive := fun s => s.Consistent ∧ s.Delivering)
    (fun _ m h => ⟨h.1.act m, h.2.act h.1 m⟩) ⟨hs, h⟩ ms).2

theorem Consistent.not_yields_again (h : s.Consistent) (hm : m.Yields s y)
    (ms : List (Moment p i o)) {n : Moment p i o} {y' : Yield o} (hid : y'.id = y.id) :
    ¬ n.Yields ((s.act c m).run c ms) y' := by
  intro hn
  have hsettled := (h.settled_of_endsWith_ok c hm.2.1).follows (h.act m) ⟨ms, rfl⟩ (c := c)
  exact ((h.act m).run ms).not_endsWith_of_settled (hid ▸ hsettled) hn.2.1

theorem Consistent.eq_of_yields (h : s.Consistent) (hdelivering : s.Delivering)
    (hm : m.Yields s y) {ms : List (Moment p i o)} {y' : Yield o}
    (hy' : y' ∈ ((s.act c m).run c ms).yields) (hid : y'.id = y.id) : y' = y := by
  rcases (h.act m).exists_yields hy' with hwas | ⟨before, n, after, rfl, hyields⟩
  · rw [h.yields_of_yields c hm, List.mem_append, List.mem_singleton] at hwas
    rcases hwas with hwas | heq
    · exact absurd hm.2.1 (h.not_endsWith_of_settled (hid ▸ hdelivering y' hwas))
    · exact heq
  · exact absurd hyields (h.not_yields_again hm before hid)

/-!
# Values that are stored at once
-/

/-- Nothing comes between a success and the storing of its value. -/
def Prompt (c : Coding i o) : State p i o -> List (Moment p i o) -> Prop
  | s, [] => s.yields = []
  | s, m :: ms => (s.yields ≠ [] -> m.action = .store 0) ∧ Prompt c (s.act c m) ms

theorem Prompt.rest {before after : List (Moment p i o)} (h : Prompt c s (before ++ after)) :
    Prompt c (s.run c before) after := by
  induction before generalizing s with
  | nil => exact h
  | cons m before ih => exact ih h.2

theorem Prompt.next (hs : s.Consistent) {ms : List (Moment p i o)} (h : Prompt c s (m :: ms))
    (hm : m.Yields s y) :
    exists n later, ms = n :: later ∧ n.Puts (s.act c m) y ∧
      ((s.act c m).act c n).yields = [] := by
  have hnone : s.yields = [] := by
    by_contra hne
    rcases hm.2.1 with ⟨place, found, elapsed, a, hfinish, _⟩
    cases hfinish.symm.trans (h.1 hne)
  have hone := hs.yields_of_yields c hm
  rw [hnone, List.nil_append] at hone
  cases ms with
  | nil => cases hone.symm.trans h.2
  | cons n later =>
      have hstore : n.action = .store 0 := h.2.1 fun hnil => by cases hone.symm.trans hnil
      refine ⟨n, later, rfl, ⟨0, hstore, by rw [hone]; rfl⟩, ?_⟩
      rcases n with ⟨now, action⟩
      cases hstore
      rw [yields_store, hone]
      rfl

theorem Prompt.previous (hs : s.Consistent) (hnone : s.yields = [])
    {before after : List (Moment p i o)} (h : Prompt c s (before ++ m :: after))
    (hm : m.Puts (s.run c before) y) :
    exists first n, before = first ++ [n] ∧ n.Yields (s.run c first) y := by
  have hy := hm.mem
  rcases hs.exists_yields hy with hwas | ⟨first, n, between, rfl, hyields⟩
  · rw [hnone] at hwas
    cases hwas
  · cases between with
    | nil => exact ⟨first, n, rfl, hyields⟩
    | cons next between =>
        -- The value was stored next, and it cannot have been on its way again.
        rw [List.append_assoc] at h
        rcases h.rest.next (hs.run first) hyields with ⟨next', later, hnext, _, hempty⟩
        cases hnext
        rw [run_append_cons] at hy
        have hconsistent := ((hs.run first (c := c)).act n (c := c)).act next (c := c)
        rcases hconsistent.exists_yields hy with hwas | ⟨first', n', after', rfl, hyields'⟩
        · rw [hempty] at hwas
          cases hwas
        · exact absurd hyields' ((hs.run first).not_yields_again hyields (next :: first') rfl)

end State
end Scheduler
end CodeSurvey
