import CodeSurvey.Proofs.Cache.Contents
import CodeSurvey.Proofs.Scheduler.Yielding

/-!
# What a scheduler stores

An action does at most one thing to the cache: a submission looks up the key of its input, a
value that was on its way is written under its key, and the cache is cleared.  So what is
stored under a key is the latest value that was written there.
-/

namespace CodeSurvey
namespace Scheduler

/-!
# Operations on the cache
-/

/-- What the action does to the cache, if it does anything to it. -/
def Moment.operation? (m : Moment p i o) (c : Coding i o) (s : State p i o) :
    Option (Cache.Operation o) :=
  match m.action with
  | .submit input _ => if s.refusal?.isNone then (s.cacheKey c input).map .get else none
  | .store place => (s.yields[place]?).map fun y => .set y.key y.value
  | .clearCache => some .clear
  | _ => none

def Moment.Stores (m : Moment p i o) (c : Coding i o) (s : State p i o) (key : String)
    (value : o) : Prop :=
  m.operation? c s = some (.set key value)

/-- Why a value is not in the cache any more. -/
inductive Moment.Loses (m : Moment p i o) (c : Coding i o) (s : State p i o) (key : String) :
    Prop where
  /-- There was no room for another key, and this one was used least recently. -/
  | evicted (hstores : m.Stores c s other value) (hevicts : s.cache.Evicts other key)
  /-- It was found expired by a look-up. -/
  | expired (hlooks : m.operation? c s = some (.get key)) (hfound : s.cache.find? key = some e)
      (hexpired : Cache.isExpired s.cache.options m.now e = true)
  | cleared (haction : m.action = .clearCache)

/-- With room left and entries that live for ever, only clearing loses a value. -/
theorem Moment.not_loses {m : Moment p i o} {c : Coding i o} {s : State p i o} {key : String}
    (hroom : s.cache.size < s.cache.options.maxSize) (hlasts : s.cache.options.ttlMs = 0)
    (haction : m.action ≠ .clearCache) : ¬ m.Loses c s key := by
  rintro (⟨_, hevicts⟩ | ⟨_, _, hexpired⟩ | hclears)
  · exact Nat.not_le.mpr hroom hevicts.2.1
  · have hlimited := of_decide_eq_true (Bool.and_eq_true_iff.mp hexpired).1
    unfold Cache.lifetime at hlimited
    rw [hlasts] at hlimited
    cases hlimited
  · exact haction hclears

namespace State

variable {s : State p i o} {c : Coding i o} {m : Moment p i o} {key : String}

theorem cache_accept (s : State p i o) (now : Int) (input : i) (priority : Int)
    (key : Option String) (cached : Option o) :
    (s.accept now input priority key cached).1.cache = s.cache := by
  cases cached with
  | none => rfl
  | some value => rfl

theorem cache_submit (c : Coding i o) (s : State p i o) (now : Int) (input : i)
    (priority : Int) :
    (s.submit c now input priority).state.cache =
      if s.refusal?.isNone then (s.lookUp now (s.cacheKey c input)).state.cache
      else s.cache := by
  unfold submit
  split
  next refusal hrefusal =>
    rw [hrefusal]
    rfl
  next hrefusal =>
    rw [hrefusal]
    simp only
    split
    · rfl
    · exact cache_accept _ now input priority _ _

theorem cache_act (c : Coding i o) (s : State p i o) (m : Moment p i o) :
    (s.act c m).cache =
      match m.operation? c s with
      | some operation => s.cache.act c.output ⟨m.now, operation⟩
      | none => s.cache := by
  rcases m with ⟨now, action⟩
  cases action with
  | submit input priority =>
      have hact : (s.act c ⟨now, .submit input priority⟩).cache = _ :=
        cache_submit c s now input priority
      rw [hact]
      unfold Moment.operation?
      simp only
      split
      · cases s.cacheKey c input with
        | none => rfl
        | some key => rfl
      · rfl
  | cancel id =>
      rcases s.exists_cancel_eq now id with ⟨_, _, _, hcancel, _⟩
      have hact : s.act c ⟨now, .cancel id⟩ = _ := hcancel
      rw [hact]
      rfl
  | cancelAll =>
      rcases s.exists_cancelAll_eq now with ⟨_, _, hcancel, _⟩
      have hact : s.act c ⟨now, .cancelAll⟩ = _ := hcancel
      rw [hact]
      rfl
  | beginShutdown =>
      have hact : s.act c ⟨now, .beginShutdown⟩ = _ := s.beginShutdown_eq
      rw [hact]
      rfl
  | dispatch =>
      rcases s.exists_dispatch_eq now with ⟨_, _, _, _, _, _, hdispatch⟩
      have hact : s.act c ⟨now, .dispatch⟩ = _ := hdispatch
      rw [hact]
      rfl
  | finish place found elapsed =>
      unfold State.act
      simp only
      split
      next a _ =>
        rcases s.exists_finish_eq now a.id (a.outcome found) elapsed with
          ⟨_, _, _, _, _, _, _, _, _, hfinish⟩
        rw [hfinish]
        rfl
      next => rfl
  | store place =>
      unfold State.act Moment.operation? State.store
      simp only
      cases s.yields[place]? with
      | none => rfl
      | some y => rfl
  | _ => rfl

/-!
# The value under a key
-/

theorem stores_iff {value : o} :
    m.Stores c s key value ↔ exists y, m.Puts s y ∧ y.key = key ∧ y.value = value := by
  rcases m with ⟨now, action⟩
  constructor
  · intro h
    unfold Moment.Stores Moment.operation? at h
    split at h
    next =>
      split at h
      · rcases Option.map_eq_some_iff.mp h with ⟨_, _, heq⟩
        cases heq
      · cases h
    next place haction =>
      rcases Option.map_eq_some_iff.mp h with ⟨y, hy, heq⟩
      cases heq
      exact ⟨y, ⟨place, haction, hy⟩, rfl, rfl⟩
    next => cases h
    next => cases h
  · rintro ⟨y, ⟨place, rfl, hy⟩, rfl, rfl⟩
    unfold Moment.Stores Moment.operation?
    simp only
    rw [hy]
    rfl

theorem operation?_eq_some {operation : Cache.Operation o}
    (h : m.operation? c s = some operation) :
    (exists key, operation = .get key) ∨ (exists key value, operation = .set key value) ∨
      operation = .clear ∧ m.action = .clearCache := by
  unfold Moment.operation? at h
  split at h
  next =>
    split at h
    · rcases Option.map_eq_some_iff.mp h with ⟨key, _, rfl⟩
      exact Or.inl ⟨key, rfl⟩
    · cases h
  next =>
    rcases Option.map_eq_some_iff.mp h with ⟨y, _, rfl⟩
    exact Or.inr (Or.inl ⟨y.key, y.value, rfl⟩)
  next haction =>
    cases h
    exact Or.inr (Or.inr ⟨rfl, haction⟩)
  next => cases h

/-- What becomes of the value under a key. -/
inductive Fares (c : Coding i o) (s : State p i o) (m : Moment p i o) (key : String)
    (was : Option o) : Option o -> Prop where
  | stored (hstores : m.Stores c s key value) : Fares c s m key was (some value)
  | kept (hstores : forall value, ¬ m.Stores c s key value) (haction : m.action ≠ .clearCache) :
      Fares c s m key was was
  | lost (hstores : forall value, ¬ m.Stores c s key value) (hloses : m.Loses c s key) :
      Fares c s m key was none

theorem fares_act (c : Coding i o) (s : State p i o) (m : Moment p i o) (key : String) :
    Fares c s m key (s.cache.value? key) ((s.act c m).cache.value? key) := by
  rw [cache_act]
  cases hoperation : m.operation? c s with
  | none =>
      apply Fares.kept
      · intro value hstores
        cases hoperation.symm.trans hstores
      · intro haction
        rcases m with ⟨now, action⟩
        cases haction
        cases hoperation
  | some operation =>
      have hother : forall value, operation ≠ .set key value ->
          ¬ m.Stores c s key value := by
        intro value hne hstores
        cases hoperation.symm.trans hstores
        exact hne rfl
      have hunclear : operation ≠ .clear -> m.action ≠ .clearCache := by
        intro hne haction
        rcases m with ⟨now, action⟩
        cases haction
        cases hoperation
        exact hne rfl
      rcases operation?_eq_some hoperation with ⟨k, rfl⟩ | ⟨k, value, rfl⟩ | ⟨rfl, haction⟩
      · have hstores := fun value => hother value nofun
        show Fares c s m key _ ((s.cache.get m.now k).state.value? key)
        rcases s.cache.value?_get m.now k key with hsame | ⟨hnone, rfl, e, hfound, hexpired⟩
        · rw [hsame]
          exact .kept hstores (hunclear nofun)
        · rw [hnone]
          exact .lost hstores (.expired hoperation hfound hexpired)
      · show Fares c s m key _ ((s.cache.set c.output m.now k value).state.value? key)
        by_cases hkey : k = key
        · subst hkey
          rw [Cache.value?_set_self]
          exact .stored hoperation
        · have hstores : forall value, ¬ m.Stores c s key value := by
            intro value'
            apply hother
            rintro ⟨⟩
            exact hkey rfl
          rcases Cache.value?_set_of_ne c.output m.now value hkey (c := s.cache) with
            hsame | ⟨hnone, hevicts⟩
          · rw [hsame]
            exact .kept hstores (hunclear nofun)
          · rw [hnone]
            exact .lost hstores (.evicted hoperation hevicts)
      · have hstores := fun value => hother value nofun
        show Fares c s m key _ (s.cache.clear.value? key)
        exact .lost hstores (.cleared haction)

end State

/-!
# The latest of its kind
-/

/-- Of the moments of a run, the one between `before` and `after` is the latest of which
`happens` holds; whether it holds depends on what came before. -/
structure Latest (happens : List a -> a -> Prop) (before : List a) (m : a) (after : List a) :
    Prop where
  holds : happens before m
  last : forall between m' later, after = between ++ m' :: later ->
    ¬ happens (before ++ m :: between) m'

namespace Latest

variable {happens happens' : List a -> a -> Prop} {before after : List a} {m next : a}

theorem here (h : happens before m) : Latest happens before m [] where
  holds := h
  last := fun between m' later heq => by
    cases between <;> cases heq

theorem concat (h : Latest happens before m after)
    (hnext : ¬ happens (before ++ m :: after) next) :
    Latest happens before m (after ++ [next]) where
  holds := h.holds
  last := by
    intro between m' later heq
    rcases List.eq_nil_or_concat later with rfl | ⟨later, last, rfl⟩
    · rcases List.append_inj' heq rfl with ⟨rfl, hsingle⟩
      cases hsingle
      exact hnext
    · rw [List.concat_eq_append, ← List.cons_append, ← List.append_assoc] at heq
      exact h.last between m' later (List.append_inj' heq rfl).1

theorem init (h : Latest happens before m (after ++ [next])) :
    Latest happens before m after ∧ ¬ happens (before ++ m :: after) next := by
  constructor
  · refine ⟨h.holds, ?_⟩
    rintro between m' later rfl
    exact h.last between m' (later ++ [next]) (List.append_assoc _ _ _)
  · exact h.last after next [] rfl

theorem imp (h : Latest happens before m after)
    (hiff : forall earlier m' later, before ++ m :: after = earlier ++ m' :: later ->
      (happens' earlier m' ↔ happens earlier m')) : Latest happens' before m after where
  holds := (hiff before m after rfl).mpr h.holds
  last := by
    rintro between m' later rfl hhappens
    apply h.last between m' later rfl
    apply (hiff _ m' later ?_).mp hhappens
    rw [List.append_assoc]
    rfl

end Latest

namespace State

variable {s₀ : State p i o} {c : Coding i o} {key : String} {value : o}

/-- A value that is stored was written when its key was written for the last time, and the
cache was not cleared since. -/
theorem exists_latest (hempty : s₀.cache.value? key = none) {ms : List (Moment p i o)}
    (h : (s₀.run c ms).cache.value? key = some value) :
    exists before m after, ms = before ++ m :: after ∧
      Latest (fun before m => exists value, m.Stores c (s₀.run c before) key value)
        before m after ∧
      m.Stores c (s₀.run c before) key value ∧
      forall m', m' ∈ after -> m'.action ≠ .clearCache := by
  induction ms using List.reverseRecOn with
  | nil => cases hempty.symm.trans h
  | append_singleton ms m ih =>
      have hfares := fares_act c (s₀.run c ms) m key
      rw [run_concat] at h
      rw [h] at hfares
      generalize hwas : (s₀.run c ms).cache.value? key = was at hfares
      cases hfares with
      | stored hstores => exact ⟨ms, m, [], rfl, .here ⟨value, hstores⟩, hstores, nofun⟩
      | kept hnot haction =>
          rcases ih hwas with ⟨before, first, after, rfl, hlatest, hstores, huncleared⟩
          refine ⟨before, first, after ++ [m], by simp, ?_, hstores, ?_⟩
          · exact hlatest.concat fun ⟨value', hstores'⟩ => hnot value' hstores'
          · intro m' hm'
            cases List.mem_append.mp hm' with
            | inl hm' => exact huncleared m' hm'
            | inr hm' => exact List.mem_singleton.mp hm' ▸ haction

/-- What was written under a key stays there, until it is overwritten or lost. -/
theorem value?_of_latest {before after : List (Moment p i o)} {m : Moment p i o}
    (hlatest : Latest (fun before m => exists value, m.Stores c (s₀.run c before) key value)
      before m after)
    (hstores : m.Stores c (s₀.run c before) key value)
    (hkept : forall between m' later, after = between ++ m' :: later ->
      ¬ m'.Loses c (s₀.run c (before ++ m :: between)) key) :
    (s₀.run c (before ++ m :: after)).cache.value? key = some value := by
  induction after using List.reverseRecOn with
  | nil =>
      have hfares := fares_act c (s₀.run c before) m key
      rw [run_concat]
      generalize ((s₀.run c before).act c m).cache.value? key = becomes at hfares ⊢
      cases hfares with
      | stored hstores' => cases hstores.symm.trans hstores'; rfl
      | kept hnot _ => exact absurd hstores (hnot value)
      | lost hnot _ => exact absurd hstores (hnot value)
  | append_singleton after next ih =>
      rcases hlatest.init with ⟨hlatest, hnot⟩
      have hwas := ih hlatest fun between m' later heq =>
        hkept between m' (later ++ [next]) (by rw [heq, List.append_assoc]; rfl)
      have hfares := fares_act c (s₀.run c (before ++ m :: after)) next key
      rw [hwas] at hfares
      rw [← List.cons_append, ← List.append_assoc, run_concat]
      generalize (State.act c _ next).cache.value? key = becomes at hfares ⊢
      cases hfares with
      | stored hstores' => exact absurd ⟨_, hstores'⟩ hnot
      | kept _ _ => rfl
      | lost _ hloses => exact absurd hloses (hkept after next [] rfl)

end State
end Scheduler
end CodeSurvey
