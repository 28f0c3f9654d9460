import CodeSurvey.Proofs.Scheduler.InputKeys
import CodeSurvey.Proofs.Scheduler.Storing
import CodeSurvey.Proofs.Scheduler.Yielding
import CodeSurvey.Proofs.Steps

/-!
# Answers from the cache

A submission is answered from the cache with the value that was put there last for the same
input, and with no other.  Where every value is put there at once, this is the value of the
latest success.
-/

namespace CodeSurvey
namespace Scheduler
namespace State

variable {s s₀ : State p i o} {c : Coding i o} {m : Moment p i o} {id : TaskId} {x : i}
  {value : o} {key : String}

/-!
# Successes and what is kept of them
-/

/-- An attempt at the task succeeds with the value, and `same` holds of the input of the task;
caching was enabled when the task was submitted, and it is enabled now. -/
def Succeeds (same : i -> Prop) (c : Coding i o) (s₀ : State p i o) (id : TaskId) (value : o)
    (before : List (Moment p i o)) (m : Moment p i o) : Prop :=
  (s₀.run c before).options.enableCaching = true ∧
    m.EndsWith (s₀.run c before) id (.ok value) ∧ exists x, s₀.Submitted c before id x ∧ same x

/-- The value of such a success is put into the cache. -/
def Keeps (same : i -> Prop) (c : Coding i o) (s₀ : State p i o) (id : TaskId) (value : o)
    (before : List (Moment p i o)) (m : Moment p i o) : Prop :=
  (exists first n between, before = first ++ n :: between ∧
      s₀.Succeeds same c id value first n) ∧
    exists y, m.Puts (s₀.run c before) y ∧ y.id = id ∧ y.value = value

/-- What happened to the value happened to no other one since, and the cache was not
cleared. -/
structure Genuine (happens : TaskId -> o -> List (Moment p i o) -> Moment p i o -> Prop)
    (value : o) (before : List (Moment p i o)) (m : Moment p i o)
    (after : List (Moment p i o)) : Prop where
  happened : exists id, happens id value before m
  latest : Latest (fun before m => exists id value, happens id value before m) before m after
  uncleared : forall m', m' ∈ after -> m'.action ≠ .clearCache

/-- Nothing has happened to the scheduler. -/
structure Fresh (s : State p i o) : Prop where
  consistent : s.Consistent
  records : s.records = []
  yields : s.yields = []
  cache : forall key, s.cache.value? key = none

theorem fresh_new (options : Options) (cacheOptions : Cache.Options) {ids : IdSource}
    (hids : Function.Injective ids.nth) :
    ((State.new options cacheOptions ids).state : State p i o).Fresh where
  consistent := consistent_new options cacheOptions hids
  records := rfl
  yields := rfl
  cache := by
    intro key
    rcases Cache.exists_new_eq (v := o) cacheOptions with ⟨o, _, hnew⟩
    show (Cache.new cacheOptions : Log.Outcome (Cache _) Unit).state.value? key = none
    rw [hnew]
    rfl

theorem Fresh.delivering (h : s.Fresh) : s.Delivering := by
  intro y hy
  rw [h.yields] at hy
  cases hy

section Keys

variable {written : i -> Option Json.Value} {output : Cache.Form o}
  {ms before after : List (Moment p i o)} {now priority : Int}

theorem Fresh.yields_of_succeeds (h : s₀.Fresh)
    (hkey : (Coding.sorting written output).key x = some key)
    (hsucceeds : s₀.Succeeds (Coding.Same written x) (.sorting written output) id value before m) :
    m.Yields (s₀.run (.sorting written output) before) { id, key, value } := by
  rcases hsucceeds with ⟨hcaching, hends, z, hsubmitted, hsame⟩
  rcases (h.consistent.run before).exists_running_of_endsWith hends with ⟨task, htask, _⟩
  rcases Option.map_eq_some_iff.mp htask with ⟨r, hrecord, _⟩
  rcases hsame.key_eq output with ⟨key', hx, hz⟩
  refine ⟨hcaching, hends, r, hrecord, ?_⟩
  rw [h.consistent.cacheKey_of_submitted hsubmitted hrecord, hz, ← hx, hkey]

theorem Fresh.succeeds_of_yields (h : s₀.Fresh)
    (hdigests : (Coding.sorting written output).Apart ms now x priority)
    {y : Yield o} (hkey : (Coding.sorting written output).key x = some y.key)
    (hbefore : before <+: ms)
    (hyields : m.Yields (s₀.run (.sorting written output) before) y) :
    s₀.Succeeds (Coding.Same written x) (.sorting written output) y.id y.value before m := by
  rcases hyields with ⟨hcaching, hends, r, hrecord, hr⟩
  rcases h.consistent.exists_submitted h.records hrecord hr with ⟨z, hsubmitted, hz⟩
  rcases hsubmitted.mem with ⟨n, priority', hn, haction⟩
  have hsame := Coding.same_of_key_eq hdigests (List.mem_append_right _ List.mem_cons_self)
    (List.mem_append_left _ (hbefore.subset hn)) rfl haction hkey hz
  exact ⟨hcaching, hends, z, hsubmitted, hsame⟩

theorem Fresh.puts_of_keeps (h : s₀.Fresh)
    (hkey : (Coding.sorting written output).key x = some key)
    (hkeeps : s₀.Keeps (Coding.Same written x) (.sorting written output) id value before m) :
    m.Puts (s₀.run (.sorting written output) before) { id, key, value } := by
  rcases hkeeps with ⟨⟨first, n, between, rfl, hsucceeds⟩, y, hputs, hid, _⟩
  have hyields := h.yields_of_succeeds hkey hsucceeds
  have hmem := hputs.mem
  rw [run_append_cons] at hmem
  have hdelivering := h.delivering.run (c := .sorting written output) h.consistent first
  exact (h.consistent.run first).eq_of_yields hdelivering hyields hmem hid ▸ hputs

theorem Fresh.stores_iff (h : s₀.Fresh)
    (hdigests : (Coding.sorting written output).Apart ms now x priority)
    (hkey : (Coding.sorting written output).key x = some key) (hbefore : before <+: ms) :
    m.Stores (.sorting written output) (s₀.run (.sorting written output) before) key value ↔
      exists id,
        s₀.Keeps (Coding.Same written x) (.sorting written output) id value before m := by
  rw [State.stores_iff]
  constructor
  · rintro ⟨y, hputs, rfl, rfl⟩
    refine ⟨y.id, ?_, y, hputs, rfl, rfl⟩
    rcases h.consistent.exists_yields hputs.mem with
      hwas | ⟨first, n, between, rfl, hyields⟩
    · rw [h.yields] at hwas
      cases hwas
    · have hfirst : first <+: ms := (List.prefix_append _ _).trans hbefore
      exact ⟨first, n, between, rfl, h.succeeds_of_yields hdigests hkey hfirst hyields⟩
  · rintro ⟨id, hkeeps⟩
    exact ⟨_, h.puts_of_keeps hkey hkeeps, rfl, rfl⟩

theorem Fresh.latest_iff (h : s₀.Fresh)
    (hdigests : (Coding.sorting written output).Apart (before ++ m :: after) now x priority)
    (hkey : (Coding.sorting written output).key x = some key) :
    Latest (fun before m => exists value, m.Stores (.sorting written output)
        (s₀.run (.sorting written output) before) key value) before m after ↔
      Latest (fun before m => exists id value,
        s₀.Keeps (Coding.Same written x) (.sorting written output) id value before m)
        before m after := by
  have hiff : forall earlier m' later, before ++ m :: after = earlier ++ m' :: later ->
      ((exists value, m'.Stores (.sorting written output)
          (s₀.run (.sorting written output) earlier) key value) ↔
        exists id value,
          s₀.Keeps (Coding.Same written x) (.sorting written output) id value earlier m') := by
    intro earlier m' later heq
    have hearlier : earlier <+: before ++ m :: after := heq ▸ List.prefix_append _ _
    rw [exists_comm]
    exact exists_congr fun value => h.stores_iff hdigests hkey hearlier
  constructor
  · exact fun hlatest => hlatest.imp fun earlier m' later heq => (hiff earlier m' later heq).symm
  · exact fun hlatest => hlatest.imp hiff

/-!
# Values that are stored at once

Where nothing comes between a success and the storing of its value, the latest value that was
put into the cache is that of the latest success.
-/

theorem Fresh.exists_keeps (h : s₀.Fresh)
    (hkey : (Coding.sorting written output).key x = some key)
    (hprompt : Prompt (.sorting written output) s₀ (before ++ m :: after))
    (hsucceeds : s₀.Succeeds (Coding.Same written x) (.sorting written output) id value before m) :
    exists n later, after = n :: later ∧
      s₀.Keeps (Coding.Same written x) (.sorting written output) id value (before ++ [m]) n := by
  have hyields := h.yields_of_succeeds hkey hsucceeds
  rcases hprompt.rest.next (h.consistent.run before) hyields with ⟨n, later, rfl, hputs, _⟩
  refine ⟨n, later, rfl, ⟨before, m, [], rfl, hsucceeds⟩, { id, key, value }, ?_, rfl, rfl⟩
  rw [run_concat]
  exact hputs

theorem Fresh.exists_succeeds (h : s₀.Fresh)
    (hdigests : (Coding.sorting written output).Apart ms now x priority)
    (hkey : (Coding.sorting written output).key x = some key)
    (hprompt : Prompt (.sorting written output) s₀ ms) (hms : ms = before ++ m :: after)
    (hkeeps : s₀.Keeps (Coding.Same written x) (.sorting written output) id value before m) :
    exists first n, before = first ++ [n] ∧
      s₀.Succeeds (Coding.Same written x) (.sorting written output) id value first n := by
  subst hms
  have hputs := h.puts_of_keeps hkey hkeeps
  rcases hprompt.previous h.consistent h.yields hputs with ⟨first, n, rfl, hyields⟩
  have hfirst : first <+: first ++ [n] ++ m :: after := by
    rw [List.append_assoc]
    exact List.prefix_append _ _
  exact ⟨first, n, rfl, h.succeeds_of_yields hdigests hkey hfirst hyields⟩

theorem not_succeeds_of_keeps {same : i -> Prop} {id' : TaskId} {value' : o}
    {ms : List (Moment p i o)} (hkeeps : s₀.Keeps same c id value before m) :
    ¬ s₀.Succeeds same c id' value' ms m := by
  rcases hkeeps.2 with ⟨y, ⟨place, hstore, _⟩, _⟩
  rintro ⟨_, ⟨_, _, _, _, hfinish, _⟩, _⟩
  cases hstore.symm.trans hfinish

theorem uncleared_of_keeps {same : i -> Prop} (hkeeps : s₀.Keeps same c id value before m) :
    m.action ≠ .clearCache := by
  rcases hkeeps.2 with ⟨y, ⟨place, hstore, _⟩, _⟩
  rw [hstore]
  exact nofun

theorem exists_key_of_keeps
    (hkeeps : s₀.Keeps (Coding.Same written x) (.sorting written output) id value before m) :
    exists key, (Coding.sorting written output).key x = some key := by
  rcases hkeeps.1 with ⟨_, _, _, _, _, _, z, _, hsame⟩
  rcases hsame.key_eq output with ⟨key, hkey, _⟩
  exact ⟨key, hkey⟩

/-- The value that was kept last is that of the latest success. -/
theorem Fresh.genuine_of_keeps (h : s₀.Fresh)
    (hdigests : (Coding.sorting written output).Apart (before ++ m :: after) now x priority)
    (hkey : (Coding.sorting written output).key x = some key)
    (hprompt : Prompt (.sorting written output) s₀ (before ++ m :: after))
    (hgenuine : Genuine (s₀.Keeps (Coding.Same written x) (.sorting written output)) value
      before m after) :
    exists first n, before = first ++ [n] ∧
      Genuine (s₀.Succeeds (Coding.Same written x) (.sorting written output)) value first n
        (m :: after) := by
  rcases hgenuine.happened with ⟨id, hkeeps⟩
  rcases h.exists_succeeds hdigests hkey hprompt rfl hkeeps with ⟨first, n, rfl, hsucceeds⟩
  refine ⟨first, n, rfl, ⟨id, hsucceeds⟩, ⟨⟨id, value, hsucceeds⟩, ?_⟩, ?_⟩
  · rintro between n' later hsplit ⟨id', value', hsucceeds'⟩
    cases between with
    | nil =>
        cases hsplit
        exact not_succeeds_of_keeps hkeeps hsucceeds'
    | cons _ between =>
        -- A later success would have been kept, too.
        cases hsplit
        have hprompt' : Prompt (.sorting written output) s₀
            (first ++ n :: m :: between ++ n' :: later) := by
          simpa using hprompt
        rcases h.exists_keeps hkey hprompt' hsucceeds' with ⟨m', later, rfl, hkeeps'⟩
        refine hgenuine.latest.last (between ++ [n']) m' later (by simp) ⟨id', value', ?_⟩
        simpa using hkeeps'
  · intro m' hm'
    rcases List.mem_cons.mp hm' with rfl | hm'
    · exact uncleared_of_keeps hkeeps
    · exact hgenuine.uncleared m' hm'

theorem Fresh.genuine_keeps (h : s₀.Fresh)
    (hdigests : (Coding.sorting written output).Apart (before ++ m :: after) now x priority)
    (hkey : (Coding.sorting written output).key x = some key)
    (hprompt : Prompt (.sorting written output) s₀ (before ++ m :: after))
    (hgenuine : Genuine (s₀.Succeeds (Coding.Same written x) (.sorting written output)) value
      before m after) :
    exists n later, after = n :: later ∧
      Genuine (s₀.Keeps (Coding.Same written x) (.sorting written output)) value
        (before ++ [m]) n later := by
  rcases hgenuine.happened with ⟨id, hsucceeds⟩
  rcases h.exists_keeps hkey hprompt hsucceeds with ⟨n, later, rfl, hkeeps⟩
  refine ⟨n, later, rfl, ⟨id, hkeeps⟩, ⟨⟨id, value, hkeeps⟩, ?_⟩, ?_⟩
  · rintro between n' rest rfl ⟨id', value', hkeeps'⟩
    have hms : before ++ m :: n :: (between ++ n' :: rest) =
        (before ++ [m] ++ n :: between) ++ n' :: rest := by simp
    rcases h.exists_succeeds hdigests hkey hprompt hms hkeeps' with
      ⟨first, m', heq, hsucceeds'⟩
    rcases List.eq_nil_or_concat between with rfl | ⟨between, m'', rfl⟩
    · rcases List.append_inj' heq rfl with ⟨_, hlast⟩
      cases hlast
      exact not_succeeds_of_keeps hkeeps hsucceeds'
    · rw [List.concat_eq_append, ← List.cons_append, ← List.append_assoc] at heq
      rcases List.append_inj' heq rfl with ⟨rfl, hlast⟩
      cases hlast
      refine hgenuine.latest.last (n :: between) m' (n' :: rest) (by simp) ⟨id', value', ?_⟩
      simpa using hsucceeds'
  · exact fun m' hm' => hgenuine.uncleared m' (List.mem_cons_of_mem _ hm')

end Keys

/-!
# Answers
-/

/-- How a submission is answered from the cache, after the actions `ms`. -/
structure Reuses (happens : TaskId -> o -> List (Moment p i o) -> Moment p i o -> Prop)
    (c : Coding i o) (s₀ : State p i o) (ms : List (Moment p i o)) (now : Int) (x : i)
    (priority : Int) : Prop where
  /-- A task that comes back completed has the latest value of its kind. -/
  genuine : forall task, ((s₀.run c ms).submit c now x priority).result = .ok task ->
    task.status = .completed ->
      exists before m after value, ms = before ++ m :: after ∧
        Genuine happens value before m after ∧ task.result = some value
  /-- It never waits, and no attempt at it is ever made. -/
  effortless : forall task, ((s₀.run c ms).submit c now x priority).result = .ok task ->
    task.status = .completed ->
      let t := ((s₀.run c ms).submit c now x priority).state
      t.queue = (s₀.run c ms).queue ∧ t.inFlight = (s₀.run c ms).inFlight ∧
        t.active = (s₀.run c ms).active ∧
        forall rest, task.id ∉ (t.run c rest).queue.map Waiting.id ∧
          task.id ∉ (t.run c rest).inFlight.map Attempt.id
  /-- While caching is enabled, the latest value answers for all that follow it, as long as
  it is not lost. -/
  answered : forall before m after value, ms = before ++ m :: after ->
    Genuine happens value before m after ->
      (s₀.run c ms).options.enableCaching = true -> (s₀.run c ms).refusal? = none ->
        (forall key, c.key x = some key -> forall between m' later,
          after ++ [⟨now, .submit x priority⟩] = between ++ m' :: later ->
            ¬ m'.Loses c (s₀.run c (before ++ m :: between)) key) ->
          exists task, ((s₀.run c ms).submit c now x priority).result = .ok task ∧
            task.status = .completed ∧ task.result = some value

theorem key_of_cacheKey (h : s.cacheKey c x = some key) : c.key x = some key := by
  unfold cacheKey at h
  split at h
  · exact h
  · cases h

theorem lookUp_eq_some {now : Int} {found : Option String}
    (h : (s.lookUp now found).result = some value) :
    exists key, found = some key ∧ s.cache.value? key = some value := by
  cases found with
  | none => cases h
  | some key =>
      have hget : (s.cache.get now key).result = some value := h
      rw [Cache.result_get] at hget
      split at hget
      · exact ⟨key, rfl, hget⟩
      · cases hget

theorem exists_found {now priority : Int} {task : Task i o}
    (hresult : (s.submit c now x priority).result = .ok task) (hstatus : task.status = .completed) :
    exists value, (s.lookUp now (s.cacheKey c x)).result = some value ∧
      task.result = some value ∧
      (s.submit c now x priority).state.queue = s.queue ∧
      (s.submit c now x priority).state.inFlight = s.inFlight ∧
      (s.submit c now x priority).state.active = s.active := by
  rcases exists_submit_eq c s now x priority with
    ⟨cache, ⟨refusal, _, hrefused, _⟩ | ⟨_, _, haccepted, hstate⟩⟩
  · cases hrefused.symm.trans hresult
  · cases hfound : (s.lookUp now (s.cacheKey c x)).result with
    | none =>
        rw [hfound] at haccepted
        cases haccepted.symm.trans hresult
        cases hstatus
    | some value =>
        rw [hfound] at haccepted hstate
        cases haccepted.symm.trans hresult
        rw [hstate]
        exact ⟨value, rfl, rfl, rfl, rfl, rfl⟩

theorem exists_answered {now priority : Int} (hrefusal : s.refusal? = none)
    (hfound : (s.lookUp now (s.cacheKey c x)).result = some value) :
    exists task, (s.submit c now x priority).result = .ok task ∧ task.status = .completed ∧
      task.result = some value := by
  rcases exists_submit_eq c s now x priority with
    ⟨cache, ⟨refusal, hnot, _, _⟩ | ⟨_, _, haccepted, _⟩⟩
  · cases hfound.symm.trans (hnot hrefusal)
  · rw [hfound] at haccepted
    exact ⟨_, haccepted, rfl, rfl⟩

theorem lookUp_of_not_loses {now priority : Int} (hrefusal : s.refusal? = none)
    (hkey : s.cacheKey c x = some key) (hvalue : s.cache.value? key = some value)
    (hkept : ¬ Moment.Loses ⟨now, .submit x priority⟩ c s key) :
    (s.lookUp now (s.cacheKey c x)).result = some value := by
  rw [hkey]
  show (s.cache.get now key).result = some value
  rw [Cache.result_get]
  split
  next => exact hvalue
  next hhas =>
    rcases Option.map_eq_some_iff.mp hvalue with ⟨e, hfound, _⟩
    have hlooks : Moment.operation? ⟨now, .submit x priority⟩ c s = some (.get key) := by
      unfold Moment.operation?
      simp only
      rw [hrefusal, hkey]
      rfl
    have hexpired : Cache.isExpired s.cache.options now e = true := by
      unfold Cache.has at hhas
      rw [hfound] at hhas
      simpa using hhas
    exact absurd (.expired hlooks hfound hexpired) hkept

theorem Consistent.not_mem_of_settled (h : s.Consistent) (hsettled : s.Settled id) :
    id ∉ s.queue.map Waiting.id ∧ id ∉ s.inFlight.map Attempt.id := by
  constructor
  · intro hmem
    rcases (h.mem_queue_iff id).mp hmem with ⟨r, hrecord, hpending⟩
    exact hsettled.not_underway
      ⟨r.task, congrArg (Option.map Record.task) hrecord, Or.inl hpending⟩
  · intro hmem
    rcases (h.mem_inFlight_iff id).mp hmem with ⟨r, hrecord, hrunning⟩
    exact hsettled.not_underway
      ⟨r.task, congrArg (Option.map Record.task) hrecord, Or.inr hrunning⟩

section Keys

variable {written : i -> Option Json.Value} {output : Cache.Form o} {ms : List (Moment p i o)}
  {now priority : Int}

theorem Fresh.reuses_keeps (h : s₀.Fresh)
    (hdigests : (Coding.sorting written output).Apart ms now x priority) :
    Reuses (s₀.Keeps (Coding.Same written x) (.sorting written output))
      (.sorting written output) s₀ ms now x priority := by
  let c := Coding.sorting written output
  have hs₀ := h.consistent
  constructor
  case genuine =>
    intro task hresult hstatus
    rcases exists_found hresult hstatus with ⟨value, hfound, hvalue, _⟩
    rcases lookUp_eq_some hfound with ⟨key, hlooks, hstored⟩
    have hkey : c.key x = some key := key_of_cacheKey hlooks
    rcases exists_latest (h.cache key) hstored with
      ⟨before, m, after, rfl, hlatest, hstores, huncleared⟩
    refine ⟨before, m, after, value, rfl, ⟨?_, ?_, huncleared⟩, hvalue⟩
    · exact (h.stores_iff hdigests hkey (List.prefix_append _ _)).mp hstores
    · exact (h.latest_iff hdigests hkey).mp hlatest
  case effortless =>
    intro task hresult hstatus t
    rcases exists_found hresult hstatus with ⟨value, _, _, hqueue, hinFlight, hactive⟩
    refine ⟨hqueue, hinFlight, hactive, ?_⟩
    intro rest
    have ht : t.Consistent := (hs₀.run ms).submit x priority
    have htask := ((hs₀.run ms).task?_submit hresult).1
    have hsettled := (ht.settled htask (hstatus ▸ rfl)).follows ht ⟨rest, rfl⟩ (c := c)
    exact (ht.run rest).not_mem_of_settled hsettled
  case answered =>
    rintro before m after value rfl hgenuine hcaching hrefusal hkept
    rcases hgenuine.happened with ⟨id, hkeeps⟩
    rcases exists_key_of_keeps hkeeps with ⟨key, hkey⟩
    have hstores := (h.stores_iff hdigests hkey (List.prefix_append _ _)).mpr ⟨id, hkeeps⟩
    have hlatest := (h.latest_iff hdigests hkey).mpr hgenuine.latest
    have hstored := value?_of_latest hlatest hstores fun between m' later heq =>
      hkept key hkey between m' (later ++ [⟨now, .submit x priority⟩])
        (by rw [heq, List.append_assoc]; rfl)
    have hlooks : (s₀.run c (before ++ m :: after)).cacheKey c x = some key :=
      (if_pos hcaching).trans hkey
    exact exists_answered hrefusal
      (lookUp_of_not_loses hrefusal hlooks hstored (hkept key hkey after _ [] rfl))

theorem Fresh.reuses_succeeds (h : s₀.Fresh)
    (hdigests : (Coding.sorting written output).Apart ms now x priority)
    (hprompt : Prompt (.sorting written output) s₀ ms) :
    Reuses (s₀.Succeeds (Coding.Same written x) (.sorting written output))
      (.sorting written output) s₀ ms now x priority := by
  have hreuses := h.reuses_keeps hdigests
  constructor
  case genuine =>
    intro task hresult hstatus
    rcases hreuses.genuine task hresult hstatus with
      ⟨before, m, after, value, rfl, hgenuine, hvalue⟩
    rcases hgenuine.happened with ⟨id, hkeeps⟩
    rcases exists_key_of_keeps hkeeps with ⟨key, hkey⟩
    rcases h.genuine_of_keeps hdigests hkey hprompt hgenuine with ⟨first, n, rfl, hgenuine'⟩
    exact ⟨first, n, m :: after, value, List.append_assoc _ _ _, hgenuine', hvalue⟩
  case effortless => exact hreuses.effortless
  case answered =>
    rintro before m after value rfl hgenuine hcaching hrefusal hkept
    rcases hgenuine.happened with ⟨id, _, _, z, _, hsame⟩
    rcases hsame.key_eq output with ⟨key, hkey, _⟩
    rcases h.genuine_keeps hdigests hkey hprompt hgenuine with ⟨n, later, rfl, hgenuine'⟩
    refine hreuses.answered (before ++ [m]) n later value (by simp) hgenuine' hcaching hrefusal ?_
    intro key hkey between m' rest hsplit
    have hlost := hkept key hkey (n :: between) m' rest (congrArg (n :: ·) hsplit)
    simpa using hlost

theorem Fresh.kept_or_yields (h : s₀.Fresh) {before after : List (Moment p i o)}
    (hsucceeds : s₀.Succeeds (Coding.Same written x) (.sorting written output) id value before m) :
    (exists between n later, after = between ++ n :: later ∧
        s₀.Keeps (Coding.Same written x) (.sorting written output) id value
          (before ++ m :: between) n) ∨
      exists y, y ∈ (s₀.run (.sorting written output) (before ++ m :: after)).yields ∧
        y.id = id ∧ y.value = value := by
  rcases hsucceeds.2.2 with ⟨z, _, hsame⟩
  rcases hsame.key_eq output with ⟨key, hkey, _⟩
  have hyields := h.yields_of_succeeds hkey hsucceeds
  have hbefore := h.consistent.run (c := .sorting written output) before
  have hjoined := hbefore.yields_of_yields (.sorting written output) hyields
  have hmem : ({ id, key, value } : Yield o) ∈
      ((s₀.run (.sorting written output) before).act (.sorting written output) m).yields := by
    rw [hjoined]
    exact List.mem_append_right _ List.mem_cons_self
  rcases (hbefore.act m).kept_or_puts after hmem with
    hstill | ⟨between, n, later, rfl, hputs⟩
  · rw [← run_append_cons] at hstill
    exact Or.inr ⟨_, hstill, rfl, rfl⟩
  · rw [← run_append_cons] at hputs
    exact Or.inl ⟨between, n, later, rfl, ⟨before, m, between, rfl, hsucceeds⟩, _, hputs, rfl, rfl⟩

end Keys

/-- Whatever happens to a new scheduler, in whatever order and under whatever clock, and in
whatever order the members of its inputs are written: as long as no two texts of inputs have
the same digest, what is answered from the cache was kept last of a success, and what was
kept last and is not lost is answered from the cache.  Where every value is stored before
anything else happens, this is the value of the latest success.  The value of each success is
kept sometime, or it is still on its way. -/
theorem reuses_run (written : i -> Option Json.Value) (output : Cache.Form o)
    (options : Options) (cacheOptions : Cache.Options) {ids : IdSource}
    (hids : Function.Injective ids.nth) (ms : List (Moment p i o)) (now : Int) (x : i)
    (priority : Int) :
    let c := Coding.sorting written output
    let s₀ : State p i o := (State.new options cacheOptions ids).state
    let same := Coding.Same written x
    Set.InjOn Digest.ofText (c.texts (ms ++ [(⟨now, .submit x priority⟩ : Moment p i o)])) ->
      Reuses (s₀.Keeps same c) c s₀ ms now x priority ∧
        (Prompt c s₀ ms -> Reuses (s₀.Succeeds same c) c s₀ ms now x priority) ∧
        forall before m after id value, ms = before ++ m :: after ->
          s₀.Succeeds same c id value before m ->
            (exists between n later, after = between ++ n :: later ∧
                s₀.Keeps same c id value (before ++ m :: between) n) ∨
              exists y, y ∈ (s₀.run c ms).yields ∧ y.id = id ∧ y.value = value := by
  intro c s₀ same hdigests
  have hs₀ : s₀.Fresh := fresh_new options cacheOptions hids
  refine ⟨hs₀.reuses_keeps hdigests, hs₀.reuses_succeeds hdigests, ?_⟩
  rintro before m after id value rfl hsucceeds
  exact hs₀.kept_or_yields hsucceeds

/-- The same object with its members in another order, while the scheduler is paused and its
queue is full. -/
theorem reuses_reordered :
    let written : Bool -> Option Json.Value := fun sorted =>
      some (.object
        (if sorted then [("a", .int 1), ("b", .int 2)] else [("b", .int 2), ("a", .int 1)]))
    let c := Coding.sorting written .text
    let ms : List (Moment Unit Bool String) :=
      [⟨0, .setProcessor ()⟩, ⟨1, .submit true 0⟩, ⟨1, .dispatch⟩, ⟨2, .pause⟩,
        ⟨2, .submit true 0⟩, ⟨3, .finish 0 (.ok "done") .zero⟩, ⟨3, .store 0⟩]
    let s₀ := (State.new { Options.forWorkers 1 with maxQueueSize := 1 } .default
      (.sequential "task")).state
    let s := s₀.run c ms
    Reuses (s₀.Keeps (Coding.Same written false) c) c s₀ ms 4 false 0 ∧
      Reuses (s₀.Succeeds (Coding.Same written false) c) c s₀ ms 4 false 0 ∧
      s.paused = true ∧ s.queue.length = s.options.maxQueueSize ∧
      exists task, (s.submit c 4 false 0).result = .ok task ∧ task.status = .completed ∧
        task.result = some "done" := by
  intro written c ms s₀ s
  have hsame : Coding.Same written false true := by
    refine ⟨_, _, rfl, rfl, ?_⟩
    apply (Json.Value.alike_object_iff (by decide) (by decide)).mpr
    exact List.Perm.swap _ _ []
  have hinput : forall x, c.input x = c.input true := by
    rcases hsame with ⟨v, w, hv, hw, halike⟩
    rintro (_ | _)
    · show (written false).map _ = (written true).map _
      rw [hv, hw]
      exact congrArg some halike
    · rfl
  have hdigests : Set.InjOn Digest.ofText
      (c.texts (ms ++ [(⟨4, .submit false 0⟩ : Moment Unit Bool String)])) := by
    rintro _ ⟨_, x, _, v, _, _, hv, rfl⟩ _ ⟨_, y, _, w, _, _, hw, rfl⟩ _
    rw [hinput, ← hinput y, hw] at hv
    cases hv
    rfl
  have hprompt : Prompt c s₀ ms := by
    refine ⟨?_, ?_, ?_, ?_, ?_, ?_, fun _ => rfl, List.isEmpty_iff.mp (by decide +kernel)⟩
    all_goals exact fun hne => absurd (List.isEmpty_iff.mp (by decide +kernel)) hne
  have hreuses := reuses_run written .text { Options.forWorkers 1 with maxQueueSize := 1 } .default
    (injective_sequential "task") ms 4 false 0 hdigests
  refine ⟨hreuses.1, hreuses.2.1 hprompt, by decide +kernel, by decide +kernel, ?_⟩
  have hanswer : (s.submit c 4 false 0).result.map (fun task => (task.status, task.result)) =
      .ok (.completed, some "done") := by
    decide +kernel
  rcases map_eq_ok_iff.mp hanswer with ⟨task, hresult, hfields⟩
  exact ⟨task, hresult, congrArg Prod.fst hfields, congrArg Prod.snd hfields⟩

/-!
# Answers that are not those of the latest success
-/

def single : State Unit i String :=
  (State.new (.forWorkers 1) .default (.sequential "task")).state

/-- The cache is cleared between a success and the storing of its value. -/
def clearedBetween : List (Moment Unit Unit String) :=
  [⟨0, .setProcessor ()⟩, ⟨1, .submit () 0⟩, ⟨1, .dispatch⟩,
    ⟨2, .finish 0 (.ok "done") .zero⟩, ⟨2, .clearCache⟩, ⟨2, .store 0⟩]

/-- The value comes back although the cache was cleared after the success. -/
theorem not_reuses_clearedBetween (same : Unit -> Prop) :
    let c : Coding Unit String := .sorting (fun _ => some .null) .text
    ¬ Reuses (single.Succeeds same c) c single clearedBetween 3 () 0 := by
  intro c hreuses
  have hanswer : ((single.run c clearedBetween).submit c 3 () 0).result.map Task.status =
      .ok .completed := by
    decide +kernel
  rcases map_eq_ok_iff.mp hanswer with ⟨task, hresult, hstatus⟩
  rcases hreuses.genuine task hresult hstatus with ⟨before, m, after, value, hsplit, hgenuine, _⟩
  rcases hgenuine.happened with ⟨id, _, ⟨place, found, elapsed, a, hfinish, _⟩, _⟩
  -- Only one of the actions is the end of an attempt, and the clearing comes behind it.
  unfold clearedBetween at hsplit
  rcases before with _ | ⟨_, _ | ⟨_, _ | ⟨_, _ | ⟨_, _ | ⟨_, _ | ⟨_, before⟩⟩⟩⟩⟩⟩
  case cons.cons.cons.nil =>
    cases hsplit
    exact hgenuine.uncleared ⟨2, .clearCache⟩ List.mem_cons_self rfl
  case cons.cons.cons.cons.cons.cons =>
    cases before <;> cases hsplit
  all_goals
    cases hsplit
    cases hfinish

def ofFloat : Coding Float String :=
  .sorting (fun x => some (.number (.float x))) .text

def beforeZero : List (Moment Unit Float String) :=
  [⟨0, .setProcessor ()⟩, ⟨1, .submit 0.0 0⟩, ⟨1, .dispatch⟩]

def zeroDone : Moment Unit Float String :=
  ⟨2, .finish 0 (.ok "done") .zero⟩

def zeroStored : Moment Unit Float String :=
  ⟨2, .store 0⟩

def zeroRun : List (Moment Unit Float String) :=
  beforeZero ++ [zeroDone, zeroStored]

theorem succeeds_zeroDone :
    single.Succeeds (fun x => (x == -0.0) = true) ofFloat ⟨"task-1"⟩ "done" beforeZero
      zeroDone := by
  have hsubmit : ((single.run ofFloat [⟨0, .setProcessor ()⟩]).submit ofFloat 1 0.0 0).result.map
      Task.id = .ok ⟨"task-1"⟩ := by
    decide +kernel
  have hattempt : ((single.run ofFloat beforeZero).inFlight[0]?).map Attempt.id =
      some ⟨"task-1"⟩ := by
    decide +kernel
  rcases map_eq_ok_iff.mp hsubmit with ⟨task, htask, hid⟩
  rcases Option.map_eq_some_iff.mp hattempt with ⟨a, ha, haid⟩
  refine ⟨by decide +kernel, ⟨0, .ok "done", .zero, a, rfl, ha, haid, rfl⟩, 0.0, ?_, ?_⟩
  · exact ⟨[⟨0, .setProcessor ()⟩], ⟨1, .submit 0.0 0⟩, [⟨1, .dispatch⟩], rfl,
      ⟨0, task, rfl, htask, hid⟩, by decide +kernel⟩
  · decide +kernel

theorem genuine_zeroDone :
    Genuine (single.Succeeds (fun x => (x == -0.0) = true) ofFloat) "done" beforeZero zeroDone
      [zeroStored] where
  happened := ⟨_, succeeds_zeroDone⟩
  latest := by
    apply (Latest.here ⟨_, _, succeeds_zeroDone⟩).concat
    rintro ⟨_, _, _, ⟨_, _, _, _, haction, _⟩, _⟩
    cases haction
  uncleared := by simp [zeroStored]

/-- Zero and its negative are the same number, but they have different texts. -/
theorem not_reuses_negative :
    ¬ Reuses (single.Succeeds (fun x => (x == -0.0) = true) ofFloat) ofFloat single zeroRun 3
      (-0.0) 0 := by
  intro hreuses
  have hanswer : ((single.run ofFloat zeroRun).submit ofFloat 3 (-0.0) 0).result.map Task.status =
      .ok .pending := by
    decide +kernel
  have hkept : forall key, ofFloat.key (-0.0) = some key ->
      forall (between : List (Moment Unit Float String)) m later,
        [zeroStored] ++ [⟨3, .submit (-0.0) 0⟩] = between ++ m :: later ->
          ¬ m.Loses ofFloat (single.run ofFloat (beforeZero ++ zeroDone :: between)) key := by
    intro key _ between m later hsplit
    rcases between with _ | ⟨_, _ | ⟨_, between⟩⟩
    · cases hsplit
      exact Moment.not_loses (by decide +kernel) (by decide +kernel) nofun
    · cases hsplit
      exact Moment.not_loses (by decide +kernel) (by decide +kernel) nofun
    · cases between <;> cases hsplit
  rcases map_eq_ok_iff.mp hanswer with ⟨task, hresult, hpending⟩
  rcases hreuses.answered beforeZero zeroDone [zeroStored] "done" rfl genuine_zeroDone
    (by decide +kernel) (by decide +kernel) hkept with ⟨task', hresult', hcompleted, _⟩
  cases hresult.symm.trans hresult'
  cases hpending.symm.trans hcompleted

theorem injOn_zeros :
    Set.InjOn Digest.ofText (ofFloat.texts
      (zeroRun ++ [(⟨3, .submit (-0.0) 0⟩ : Moment Unit Float String)])) := by
  have hapart : Digest.ofText "0.0" ≠ Digest.ofText "-0.0" := by decide +kernel
  have htexts : forall text, text ∈ ofFloat.texts
      (zeroRun ++ [(⟨3, .submit (-0.0) 0⟩ : Moment Unit Float String)]) ->
      text = "0.0" ∨ text = "-0.0" := by
    rintro _ ⟨m, x, _, v, hm, haction, hv, rfl⟩
    simp only [zeroRun, beforeZero, zeroDone, zeroStored, List.cons_append, List.nil_append,
      List.mem_cons, List.not_mem_nil, or_false] at hm
    rcases hm with rfl | rfl | rfl | rfl | rfl | rfl <;> cases haction <;> cases hv
    · exact Or.inl (by decide +kernel)
    · exact Or.inr (by decide +kernel)
  intro text htext text' htext' hdigest
  rcases htexts text htext with rfl | rfl <;> rcases htexts text' htext' with rfl | rfl
  · rfl
  · exact absurd hdigest hapart
  · exact absurd hdigest.symm hapart
  · rfl

/-- An answer need not be that of the latest success: the cache may be cleared before the value
is stored, and equal numbers may have different texts. -/
theorem not_reuses :
    (let written : Unit -> Option Json.Value := fun _ => some .null
      let c : Coding Unit String := .sorting written .text
      Set.InjOn Digest.ofText
          (c.texts (clearedBetween ++ [(⟨3, .submit () 0⟩ : Moment Unit Unit String)])) ∧
        ¬ Reuses (single.Succeeds (Coding.Same written ()) c) c single clearedBetween 3 () 0) ∧
    (Set.InjOn Digest.ofText (ofFloat.texts
        (zeroRun ++ [(⟨3, .submit (-0.0) 0⟩ : Moment Unit Float String)])) ∧
      ¬ Reuses (single.Succeeds (fun x => (x == -0.0) = true) ofFloat) ofFloat single
        zeroRun 3 (-0.0) 0) := by
  refine ⟨⟨?_, not_reuses_clearedBetween _⟩, injOn_zeros, not_reuses_negative⟩
  rintro _ ⟨_, _, _, v, _, _, hv, rfl⟩ _ ⟨_, _, _, w, _, _, hw, rfl⟩ _
  cases hv
  cases hw
  rfl

end State
end Scheduler
end CodeSurvey
