import CodeSurvey.Proofs.Scheduler.Reuse

/-!
# Refused submissions

A submission is refused during a shutdown, else without a processor, else when its result
is not cached and the queue is full.  What it leaves behind is at most a missing look-up in
the cache, so that whoever submits next finds the scheduler as it was.
-/

namespace CodeSurvey
namespace Scheduler

/-- It is a submission that is refused. -/
def Moment.IsRefused (m : Moment p i o) (c : Coding i o) (s : State p i o) : Prop :=
  exists input priority refusal, m.action = .submit input priority ∧
    (s.submit c m.now input priority).result = .error refusal

namespace State

variable {s t : State p i o} {c : Coding i o} {now priority : Int} {input : i}
  {task : Task i o} {refusal : Refusal}

/-!
# Why a submission is refused
-/

/-- Results are reused, and there is a live one for the input. -/
def HasResult (c : Coding i o) (s : State p i o) (now : Int) (input : i) : Prop :=
  s.options.enableCaching = true ∧
    exists key, c.key input = some key ∧ s.cache.has now key = true

theorem cacheKey_eq_some {key : String} :
    s.cacheKey c input = some key ↔
      s.options.enableCaching = true ∧ c.key input = some key := by
  unfold cacheKey
  split
  next h => exact (and_iff_right h).symm
  next h => exact iff_of_false (fun hsome => nomatch hsome) (fun hboth => h hboth.1)

theorem lookUp_eq_none_iff :
    (s.lookUp now (s.cacheKey c input)).result = none ↔ ¬ s.HasResult c now input := by
  unfold HasResult
  cases hkey : s.cacheKey c input with
  | none =>
      refine iff_of_true rfl ?_
      rintro ⟨hcaching, key, hsome, _⟩
      cases hkey.symm.trans (cacheKey_eq_some.mpr ⟨hcaching, hsome⟩)
  | some key =>
      rcases cacheKey_eq_some.mp hkey with ⟨hcaching, hsome⟩
      have hget : (s.lookUp now (some key)).result.isSome = s.cache.has now key :=
        s.cache.isSome_get now key
      rw [← Option.not_isSome_iff_eq_none, hget, not_iff_not]
      constructor
      · exact fun hhas => ⟨hcaching, key, hsome, hhas⟩
      · rintro ⟨_, key', hsome', hhas⟩
        cases hsome.symm.trans hsome'
        exact hhas

theorem refusal?_eq_shuttingDown : s.refusal? = some .shuttingDown ↔ s.shuttingDown = true := by
  unfold refusal?
  split
  next h => exact iff_of_true rfl h
  next h =>
    refine iff_of_false ?_ h
    split
    · exact fun hsome => nomatch hsome
    · exact fun hsome => nomatch hsome

theorem refusal?_eq_noProcessor :
    s.refusal? = some .noProcessor ↔ ¬ s.shuttingDown = true ∧ s.processor = none := by
  unfold refusal?
  split
  next h => exact iff_of_false (fun hsome => nomatch hsome) (fun hboth => hboth.1 h)
  next h =>
    rw [← Option.isNone_iff_eq_none]
    split
    next hnone => exact iff_of_true rfl ⟨h, hnone⟩
    next hsome => exact iff_of_false (fun heq => nomatch heq) (fun hboth => hsome hboth.2)

theorem refusal?_ne_queueFull (s : State p i o) (capacity : Nat) :
    s.refusal? ≠ some (.queueFull capacity) := by
  unfold refusal?
  split
  · exact fun hsome => nomatch hsome
  · split
    · exact fun hsome => nomatch hsome
    · exact fun hsome => nomatch hsome

theorem refusal?_eq_none :
    s.refusal? = none ↔ ¬ s.shuttingDown = true ∧ ¬ s.processor = none := by
  constructor
  · intro h
    have hbegun : ¬ s.shuttingDown = true := fun hbegun =>
      nomatch h.symm.trans (refusal?_eq_shuttingDown.mpr hbegun)
    exact ⟨hbegun, fun hnone => nomatch h.symm.trans (refusal?_eq_noProcessor.mpr ⟨hbegun, hnone⟩)⟩
  · rintro ⟨hbegun, hsome⟩
    cases h : s.refusal? with
    | none => rfl
    | some refusal =>
        cases refusal with
        | shuttingDown => exact absurd (refusal?_eq_shuttingDown.mp h) hbegun
        | noProcessor => exact absurd (refusal?_eq_noProcessor.mp h).2 hsome
        | queueFull capacity => exact absurd h (s.refusal?_ne_queueFull capacity)

/-!
# What a refusal leaves behind
-/

/-- Whether the queue is looked at depends on what was found in the cache. -/
theorem submit_full_iff (s : State p i o) (c : Coding i o) (now : Int) (input : i)
    (cache : Cache o) :
    ((s.lookUp now (s.cacheKey c input)).result.isNone &&
        ({ s with cache } : State p i o).options.maxQueueSize ≤
          ({ s with cache } : State p i o).queue.length) = true ↔
      ¬ s.HasResult c now input ∧ s.options.maxQueueSize ≤ s.queue.length := by
  rw [Bool.and_eq_true, Option.isNone_iff_eq_none, lookUp_eq_none_iff, decide_eq_true_iff]

theorem submit_of_full (hrefusal : s.refusal? = none)
    (hfull : ¬ s.HasResult c now input ∧ s.options.maxQueueSize ≤ s.queue.length)
    (priority : Int) :
    s.submit c now input priority =
      .only (s.lookUp now (s.cacheKey c input)).state
        (.error (.queueFull s.options.maxQueueSize))
        (s.cacheKeyLog c input ++ (s.lookUp now (s.cacheKey c input)).log) := by
  rcases exists_lookUp_eq s now (s.cacheKey c input) with ⟨cache, hstate⟩
  unfold submit
  rw [hrefusal]
  simp only
  rw [hstate]
  exact if_pos ((submit_full_iff s c now input cache).mpr hfull)

theorem submit_of_room (hrefusal : s.refusal? = none)
    (hroom : ¬ (¬ s.HasResult c now input ∧ s.options.maxQueueSize ≤ s.queue.length))
    (priority : Int) : exists task, (s.submit c now input priority).result = .ok task := by
  rcases exists_lookUp_eq s now (s.cacheKey c input) with ⟨cache, hstate⟩
  unfold submit
  rw [hrefusal]
  simp only
  rw [hstate, if_neg fun hfull => hroom ((submit_full_iff s c now input cache).mp hfull)]
  exact ⟨_, rfl⟩

theorem submit_eq_error_iff :
    (s.submit c now input priority).result = .error refusal ↔
      s.refusal? = some refusal ∨
        s.refusal? = none ∧
          (¬ s.HasResult c now input ∧ s.options.maxQueueSize ≤ s.queue.length) ∧
          refusal = .queueFull s.options.maxQueueSize := by
  cases hrefusal : s.refusal? with
  | some refusal' =>
      rw [submit_of_refusal? c hrefusal]
      constructor
      · rintro ⟨⟩
        exact Or.inl rfl
      · rintro (⟨⟨⟩⟩ | ⟨⟨⟩, _⟩)
        rfl
  | none =>
      constructor
      · intro h
        by_cases hfull : ¬ s.HasResult c now input ∧ s.options.maxQueueSize ≤ s.queue.length
        · rw [submit_of_full hrefusal hfull] at h
          cases h
          exact Or.inr ⟨rfl, hfull, rfl⟩
        · rcases submit_of_room hrefusal hfull priority with ⟨task, hok⟩
          cases h.symm.trans hok
      · rintro (⟨⟨⟩⟩ | ⟨_, hfull, rfl⟩)
        rw [submit_of_full hrefusal hfull]
        rfl

/-- The cache behind a refused submission: unless the queue was full and a key was looked
up, it is as before. -/
def Cost (c : Coding i o) (s : State p i o) (now : Int) (input : i) (refusal : Refusal)
    (cache : Cache o) : Prop :=
  cache = s.cache ∨ refusal = .queueFull s.options.maxQueueSize ∧
    exists key, s.cacheKey c input = some key ∧ s.cache.Misses now key cache

theorem submit_of_error (h : (s.submit c now input priority).result = .error refusal) :
    exists cache log, s.Cost c now input refusal cache ∧
      s.submit c now input priority = .only { s with cache } (.error refusal) log := by
  rcases submit_eq_error_iff.mp h with hrefusal | ⟨hrefusal, hfull, rfl⟩
  · exact ⟨s.cache, [], Or.inl rfl, submit_of_refusal? c hrefusal now input priority⟩
  · have hsubmit := submit_of_full hrefusal hfull priority
    have hnone := lookUp_eq_none_iff.mpr hfull.1
    cases hkey : s.cacheKey c input with
    | none =>
        rw [hkey] at hsubmit
        exact ⟨s.cache, _, Or.inl rfl, hsubmit⟩
    | some key =>
        rw [hkey] at hsubmit hnone
        exact ⟨(s.cache.get now key).state, _,
          Or.inr ⟨rfl, key, hkey, Cache.misses_get hnone⟩, hsubmit⟩

/-!
# Whoever submits next
-/

/-- The task is the next one, and waits in its place unless its result was cached. -/
structure Enters (s t : State p i o) (task : Task i o) (priority : Int) : Prop where
  id : task.id = s.ids.next.1
  ids : t.ids = s.ids.next.2
  nextNumber : t.nextNumber = s.nextNumber + 1
  records : exists cacheKey,
    t.records = s.records ++ [{ task, number := s.nextNumber, cacheKey }]
  queue : task.status = .completed ∧ t.queue = s.queue ∨ task.status = .pending ∧
    t.queue = s.queue.enter { id := task.id, priority, number := s.nextNumber }

theorem enters_submit (h : (s.submit c now input priority).result = .ok task) :
    s.Enters (s.submit c now input priority).state task priority := by
  rcases exists_submit_eq c s now input priority with
    ⟨cache, ⟨_, _, hrefused, _⟩ | ⟨_, _, haccepted, hstate⟩⟩
  · cases h.symm.trans hrefused
  · cases h.symm.trans haccepted
    rw [hstate]
    cases (s.lookUp now (s.cacheKey c input)).result with
    | none => exact ⟨rfl, rfl, rfl, ⟨_, rfl⟩, Or.inr ⟨rfl, rfl⟩⟩
    | some value => exact ⟨rfl, rfl, rfl, ⟨_, rfl⟩, Or.inl ⟨rfl, rfl⟩⟩

/-- Submissions that are all refused, one after the other. -/
def AllRefused (c : Coding i o) : State p i o -> List (Moment p i o) -> Prop
  | _, [] => True
  | s, m :: ms => m.IsRefused c s ∧ AllRefused c (s.act c m) ms

theorem act_of_isRefused {m : Moment p i o} (h : m.IsRefused c s) :
    exists cache, s.act c m = { s with cache } := by
  rcases m with ⟨now, _⟩
  rcases h with ⟨input, priority, refusal, rfl, hresult⟩
  rcases submit_of_error hresult with ⟨cache, log, _, hsubmit⟩
  exact ⟨cache, congrArg Change.state hsubmit⟩

theorem AllRefused.run {ms : List (Moment p i o)} (h : s.AllRefused c ms) :
    exists cache, s.run c ms = { s with cache } := by
  induction ms generalizing s with
  | nil => exact ⟨s.cache, rfl⟩
  | cons m ms ih =>
      rcases act_of_isRefused h.1 with ⟨cache, hact⟩
      rcases ih h.2 with ⟨cache', hrun⟩
      refine ⟨cache', ?_⟩
      show (s.act c m).run c ms = _
      rw [hrun, hact]

/-- However many submissions were refused, the next one finds its place as if it had come
first. -/
theorem AllRefused.enters {ms : List (Moment p i o)} (h : s.AllRefused c ms)
    (hresult : ((s.run c ms).submit c now input priority).result = .ok task) :
    s.Enters ((s.run c ms).submit c now input priority).state task priority := by
  have henters := enters_submit hresult
  rcases h.run with ⟨cache, hrun⟩
  -- What the task enters does not depend on the cache, but what becomes of it does.
  generalize ((s.run c ms).submit c now input priority).state = t at henters ⊢
  rw [hrun] at henters
  exact ⟨henters.id, henters.ids, henters.nextNumber, henters.records, henters.queue⟩

/-!
# What was set in a run
-/

theorem shuttingDown_run_iff (c : Coding i o) (s : State p i o) (ms : List (Moment p i o)) :
    (s.run c ms).shuttingDown = true ↔
      s.shuttingDown = true ∨ Action.beginShutdown ∈ ms.map Moment.action := by
  induction ms generalizing s with
  | nil => exact (or_iff_left List.not_mem_nil).symm
  | cons m ms ih =>
      have hact : (s.act c m).shuttingDown = (s.controls.act m.action).shuttingDown :=
        congrArg Controls.shuttingDown (controls_act c s m)
      show ((s.act c m).run c ms).shuttingDown = true ↔ _
      rw [ih, hact, List.map_cons, List.mem_cons, ← or_assoc]
      apply or_congr_left
      cases m.action with
      | beginShutdown => exact iff_of_true rfl (Or.inr rfl)
      | _ => exact (or_iff_left (fun heq => nomatch heq)).symm

theorem processor_run_iff (c : Coding i o) (s : State p i o) (ms : List (Moment p i o)) :
    ¬ (s.run c ms).processor = none ↔ ¬ s.processor = none ∨
      exists processor, Action.setProcessor processor ∈ ms.map Moment.action := by
  induction ms generalizing s with
  | nil => exact (or_iff_left fun hset => List.not_mem_nil hset.choose_spec).symm
  | cons m ms ih =>
      have hact : (s.act c m).processor = (s.controls.act m.action).processor :=
        congrArg Controls.processor (controls_act c s m)
      show ¬ ((s.act c m).run c ms).processor = none ↔ _
      simp only [ih, hact, List.map_cons, List.mem_cons, exists_or, ← or_assoc]
      apply or_congr_left
      cases m.action with
      | setProcessor processor =>
          exact iff_of_true (fun hnone => nomatch hnone) (Or.inr ⟨processor, rfl⟩)
      | _ => exact (or_iff_left fun hset => nomatch hset.choose_spec).symm

/-!
# Runs
-/

/-- In every state that a new scheduler comes to, a submission is refused because a shutdown
has begun, else because no processor was ever set, else because the queue is full and there
is no live result for the input, and for no other reason.  A refusal changes nothing but
maybe the cache, from which a look-up is missing, and asks for nothing.  However many
submissions were refused, the next task that is accepted gets the id and the place that it
would have had. -/
theorem refused_run (c : Coding i o) (options : Options) (cacheOptions : Cache.Options)
    (ids : IdSource) (ms : List (Moment p i o)) :
    let s := (new options cacheOptions ids).state.run c ms
    let begun := Action.beginShutdown ∈ ms.map Moment.action
    let supplied := exists processor, Action.setProcessor processor ∈ ms.map Moment.action
    (forall now input priority,
      let change := s.submit c now input priority
      (change.result = .error .shuttingDown ↔ begun) ∧
        (change.result = .error .noProcessor ↔ ¬ begun ∧ ¬ supplied) ∧
        (forall capacity, change.result = .error (.queueFull capacity) ↔
          ¬ begun ∧ supplied ∧
            (¬ s.HasResult c now input ∧ s.options.maxQueueSize ≤ s.queue.length) ∧
            capacity = s.options.maxQueueSize) ∧
        forall refusal, change.result = .error refusal -> exists cache log,
          s.Cost c now input refusal cache ∧
            change = .only { s with cache } (.error refusal) log) ∧
      forall refused, s.AllRefused c refused ->
        let t := s.run c refused
        forall now input priority task, (t.submit c now input priority).result = .ok task ->
          s.Enters (t.submit c now input priority).state task priority := by
  intro s begun supplied
  have hbegun : s.shuttingDown = true ↔ begun :=
    (shuttingDown_run_iff c _ ms).trans (or_iff_right fun h => nomatch h)
  have hsupplied : ¬ s.processor = none ↔ supplied :=
    (processor_run_iff c _ ms).trans (or_iff_right fun h => h rfl)
  refine ⟨?_, fun _ hrefused _ _ _ _ => hrefused.enters⟩
  intro now input priority
  refine ⟨?_, ?_, ?_, fun refusal => submit_of_error⟩
  · rw [submit_eq_error_iff, refusal?_eq_shuttingDown, hbegun]
    exact or_iff_left fun hfull => nomatch hfull.2.2
  · rw [submit_eq_error_iff, refusal?_eq_noProcessor, hbegun, ← hsupplied, not_not]
    exact or_iff_left fun hfull => nomatch hfull.2.2
  · intro capacity
    rw [submit_eq_error_iff, refusal?_eq_none, hbegun, hsupplied, and_assoc,
      or_iff_right (s.refusal?_ne_queueFull capacity), Refusal.queueFull.injEq]

/-- A look-up that finds an expired entry counts more than a missing value. -/
theorem expirations_refused :
    let c : Coding Bool String :=
      { input := fun known => if known then some .null else none, output := .text }
    let options : Options := { Options.forWorkers 1 with
      minWorkers := 1, maxWorkers := 1, maxQueueSize := 1, enableCaching := true }
    let cacheOptions : Cache.Options := { Cache.Options.default with ttlMs := 10 }
    let ms : List (Moment Unit Bool String) :=
      [⟨0, .setProcessor ()⟩, ⟨1, .submit true 0⟩, ⟨1, .dispatch⟩,
        ⟨2, .finish 0 (.ok "A") .zero⟩, ⟨2, .store 0⟩, ⟨2, .dispatch⟩, ⟨3, .pause⟩,
        ⟨3, .submit false 0⟩]
    let s := (new options cacheOptions (.sequential "task")).state.run c ms
    let change := s.submit c 20 true 0
    change.result = .error (.queueFull 1) ∧
      ¬ exists misses stored, (misses = s.cache.misses ∨ misses = s.cache.misses + 1) ∧
        (stored = s.cache.stored ∨ exists key e, s.cacheKey c true = some key ∧
          s.cache.find? key = some e ∧ Cache.isExpired s.cache.options 20 e = true ∧
          stored = s.cache.without key) ∧
        change.state.cache = { s.cache with misses, stored } := by
  intro c options cacheOptions ms s change
  have hmissing : (s.lookUp 20 (s.cacheKey c true)).result = none := by decide +kernel
  have hfull : s.options.maxQueueSize ≤ s.queue.length := by decide +kernel
  have hcapacity : Refusal.queueFull 1 = .queueFull s.options.maxQueueSize := by
    decide +kernel
  have hrefusal : s.refusal? = none := by decide +kernel
  have hbefore : s.cache.expirations = 0 := by decide +kernel
  have hafter : change.state.cache.expirations = 1 := by decide +kernel
  refine ⟨?_, ?_⟩
  · exact submit_eq_error_iff.mpr
      (Or.inr ⟨hrefusal, ⟨lookUp_eq_none_iff.mp hmissing, hfull⟩, hcapacity⟩)
  · rintro ⟨misses, stored, _, _, hcache⟩
    rw [hcache] at hafter
    cases hbefore.symm.trans hafter

end State
end Scheduler
end CodeSurvey
