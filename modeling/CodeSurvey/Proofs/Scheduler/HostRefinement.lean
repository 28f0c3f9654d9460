import CodeSurvey.Scheduler.Batch
import CodeSurvey.Scheduler.Shutdown
import CodeSurvey.Proofs.Scheduler.Capacity

/-!
# Hosts that keep more

A host may keep more beside its scheduler than another one, as long as the calls come to
the same.  Then batches and shutdowns come to the same too, and what every call keeps, they
keep.
-/

namespace CodeSurvey
namespace Scheduler

/-- A call that starts nothing by itself: what it tells stands behind the events before. -/
def Mute (s : State p i o) (call : Call p i o a) : Prop :=
  exists told, (call s).state.events = s.events ++ told ∧ State.Unstarted told

theorem mute_of_act (c : Coding i o) {s : State p i o} {call : Call p i o a}
    {m : Moment p i o} (hcall : (call s).state = s.act c m) (hdispatch : m.action ≠ .dispatch)
    (hdeliver : m.action ≠ .deliver) : Mute s call := by
  unfold Mute
  rw [hcall]
  exact State.exists_unstarted_act c s hdispatch hdeliver

theorem mute_finishAndStore (c : Coding i o) (s : State p i o) (now : Int) (id : TaskId)
    (outcome : Except Failure o) (elapsed : Time.Span) :
    Mute s (·.finishAndStore c now id outcome elapsed) := by
  rcases (State.settles_finish s now id outcome elapsed).events with ⟨told, hevents, htold⟩
  rcases State.exists_act_store_eq c (s.finish now id outcome elapsed).state now
    s.yields.length with ⟨cache, yields, hstore⟩
  have hstored : (s.finishAndStore c now id outcome elapsed).state = _ := hstore
  refine ⟨told, ?_, fun id attempt hmem => nomatch htold _ hmem⟩
  rw [hstored]
  exact hevents

/-- What the calls and the messages of a host keep. -/
structure Host.Keeps (h : Host p i o w) (kept : w -> Prop) : Prop where
  write : forall {x} entries, kept x -> kept (h.write x entries)
  call : forall {a : Type} {x} (call : Call p i o a), kept x -> Mute (h.state x) call ->
    kept (h.call x call).1

/-- The host `h'` does what `h` does, to what `f` leaves of its world. -/
structure Host.Mirrors (h' : Host p i o w') (h : Host p i o w) (f : w' -> w) : Prop where
  state : forall x, h'.state x = h.state (f x)
  now : forall x, h'.now x = h.now (f x)
  write : forall x entries, f (h'.write x entries) = h.write (f x) entries
  call : forall {a : Type} (x : w') (call : Call p i o a),
    (h'.call x call).map f id = h.call (f x) call

variable {h : Host p i o w} {h' : Host p i o w'} {c : Coding i o} {kept : w -> Prop}
  {f : w' -> w}

theorem Host.Mirrors.call_fst (hmirrors : h'.Mirrors h f) (x : w') (call : Call p i o a) :
    f (h'.call x call).1 = (h.call (f x) call).1 :=
  congrArg Prod.fst (hmirrors.call x call)

theorem Host.Mirrors.call_snd (hmirrors : h'.Mirrors h f) (x : w') (call : Call p i o a) :
    (h'.call x call).2 = (h.call (f x) call).2 :=
  congrArg Prod.snd (hmirrors.call x call)

/-!
# What is kept
-/

namespace Batch

theorem keeps_submitAll (hkeeps : h.Keeps kept) (inputs : List i) (ids : List TaskId) {x : w}
    (hx : kept x) : kept (submitAll h c ids inputs x).1 := by
  induction inputs generalizing ids x with
  | nil => exact hx
  | cons input rest ih =>
      have hmute : Mute (h.state x) (·.submit c (h.now x) input 0) :=
        State.exists_unstarted_submit c _ _ _ _
      have hcall := hkeeps.call _ hx hmute
      unfold submitAll
      split
      next y task hresult =>
        rw [hresult] at hcall
        exact ih _ hcall
      next y refusal hresult =>
        rw [hresult] at hcall
        exact hcall

theorem keeps_cancelEach (hkeeps : h.Keeps kept) (c : Coding i o) (ids : List TaskId) {x : w}
    (hx : kept x) : kept (cancelEach h ids x).1 := by
  induction ids generalizing x with
  | nil => exact hx
  | cons id ids ih =>
      have hmute : Mute (h.state x) (·.cancel (h.now x) id) :=
        mute_of_act c (m := ⟨h.now x, .cancel id⟩) rfl nofun nofun
      rw [fst_cancelEach_cons]
      exact ih (hkeeps.call _ hx hmute)

theorem keeps_submit (hkeeps : h.Keeps kept) (inputs : List i) {x : w} (hx : kept x) :
    kept (submit h c inputs x).1 := by
  have hall := keeps_submitAll (c := c) hkeeps inputs [] hx
  unfold submit
  split
  next y ids hresult =>
    rw [hresult] at hall
    exact hall
  next y ids refusal hresult =>
    rw [hresult] at hall
    exact hkeeps.write _ (keeps_cancelEach hkeeps c ids hall)

end Batch

namespace Shutdown

theorem keeps_stop (hkeeps : h.Keeps kept) {x : w} (hx : kept x) : kept (stop h x).1 := by
  unfold stop
  split
  · exact hkeeps.write _ hx
  · exact hx

theorem keeps_endGrace (hkeeps : h.Keeps kept) (c : Coding i o) (grace : Nat) {x : w}
    (hx : kept x) : kept (endGrace h grace x).1 := by
  have hclose : Mute (h.state x) (·.closeRetries) :=
    mute_of_act c (m := ⟨h.now x, .closeRetries⟩) rfl nofun nofun
  have hclosed := hkeeps.call _ hx hclose
  have hcancel : Mute (h.state (h.call x (·.closeRetries)).1)
      (·.cancelAll (h.now (h.call x (·.closeRetries)).1)) :=
    mute_of_act c (m := ⟨h.now (h.call x (·.closeRetries)).1, .cancelAll⟩) rfl nofun nofun
  exact keeps_stop hkeeps (hkeeps.write _ (hkeeps.call _ hclosed hcancel))

theorem keeps_look (hkeeps : h.Keeps kept) (c : Coding i o) (elapsed : Bool)
    (shutdown : Shutdown) {x : w} (hx : kept x) : kept (look h elapsed x shutdown).1 := by
  cases shutdown with
  | waiting grace =>
      simp only [look]
      split
      · exact keeps_stop hkeeps hx
      · split
        · exact keeps_endGrace hkeeps c grace hx
        · exact hx
  | stopping => exact keeps_stop hkeeps hx
  | stopped => exact hx

theorem keeps_start (hkeeps : h.Keeps kept) (c : Coding i o) (grace : Option Nat) {x : w}
    (hx : kept x) : kept (start h grace x).1 := by
  have hbegin : Mute (h.state x) (·.beginShutdown) :=
    mute_of_act c (m := ⟨h.now x, .beginShutdown⟩) rfl nofun nofun
  exact keeps_look hkeeps c _ _ (hkeeps.call _ hx hbegin)

end Shutdown

/-!
# What comes to the same
-/

namespace Batch

theorem mirrors_submitAll (hmirrors : h'.Mirrors h f) (inputs : List i) (ids : List TaskId)
    (x : w') : (submitAll h' c ids inputs x).map f id = submitAll h c ids inputs (f x) := by
  induction inputs generalizing ids x with
  | nil => rfl
  | cons input rest ih =>
      have hcall := hmirrors.call x (·.submit c (h'.now x) input 0)
      rw [hmirrors.now] at hcall
      unfold submitAll
      rw [← hcall, hmirrors.now]
      cases h'.call x (·.submit c (h.now (f x)) input 0) with
      | mk y result =>
          cases result with
          | ok task => exact ih _ y
          | error refusal => rfl

theorem mirrors_cancelEach (hmirrors : h'.Mirrors h f) (ids : List TaskId) (x : w') :
    (cancelEach h' ids x).map f id = cancelEach h ids (f x) := by
  unfold cancelEach
  refine (List.foldl_hom (Prod.map f id) ?_).symm
  rintro ⟨y, count⟩ target
  show ((h.call (f y) (·.cancel (h.now (f y)) target)).1,
      if (h.call (f y) (·.cancel (h.now (f y)) target)).2 then count + 1 else count) =
    (f (h'.call y (·.cancel (h'.now y) target)).1,
      if (h'.call y (·.cancel (h'.now y) target)).2 then count + 1 else count)
  rw [hmirrors.call_fst, hmirrors.call_snd, hmirrors.now]

theorem mirrors_submit (hmirrors : h'.Mirrors h f) (inputs : List i) (x : w') :
    (submit h' c inputs x).map f id = submit h c inputs (f x) := by
  unfold submit
  rw [← mirrors_submitAll hmirrors]
  cases submitAll h' c [] inputs x with
  | mk y rest =>
      rcases rest with ⟨ids, refusal⟩
      cases refusal with
      | none => rfl
      | some refusal =>
          have hcancel := mirrors_cancelEach hmirrors ids y
          simp only [Prod.map, id_eq]
          rw [hmirrors.write, ← hcancel]
          rfl

end Batch

namespace Shutdown

theorem mirrors_stop (hmirrors : h'.Mirrors h f) (x : w') :
    (stop h' x).map f id = stop h (f x) := by
  unfold stop
  rw [hmirrors.state]
  split
  · show (f (h'.write x _), _) = _
    rw [hmirrors.write]
    rfl
  · rfl

theorem mirrors_endGrace (hmirrors : h'.Mirrors h f) (grace : Nat) (x : w') :
    (endGrace h' grace x).map f id = endGrace h grace (f x) := by
  let y := (h'.call x (·.closeRetries)).1
  let z := (h.call (f x) (·.closeRetries)).1
  have hclosed : f y = z := hmirrors.call_fst x (·.closeRetries)
  show (stop h' (h'.write (h'.call y (·.cancelAll (h'.now y))).1
      (graceElapsedLog (h'.call y (·.cancelAll (h'.now y))).2 grace))).map f id =
    stop h (h.write (h.call z (·.cancelAll (h.now z))).1
      (graceElapsedLog (h.call z (·.cancelAll (h.now z))).2 grace))
  rw [mirrors_stop hmirrors, hmirrors.write, hmirrors.call_fst, hmirrors.call_snd,
    hmirrors.now, hclosed]

theorem mirrors_look (hmirrors : h'.Mirrors h f) (elapsed : Bool) (shutdown : Shutdown)
    (x : w') : (look h' elapsed x shutdown).map f id = look h elapsed (f x) shutdown := by
  cases shutdown with
  | waiting grace =>
      simp only [look]
      rw [hmirrors.state]
      split
      · exact mirrors_stop hmirrors x
      · split
        · exact mirrors_endGrace hmirrors grace x
        · rfl
  | stopping => exact mirrors_stop hmirrors x
  | stopped => rfl

theorem mirrors_start (hmirrors : h'.Mirrors h f) (grace : Option Nat) (x : w') :
    (start h' grace x).map f id = start h grace (f x) := by
  unfold start
  rw [mirrors_look hmirrors, hmirrors.state, hmirrors.call_fst]

end Shutdown
end Scheduler
end CodeSurvey
