import CodeSurvey.Proofs.Cache.Contents
import CodeSurvey.Proofs.Cache.Reloading
import CodeSurvey.Proofs.Cache.Turnover

/-!
# Views of what is live

Each of the operations that look at the age of an entry skips, hides or removes the expired
ones on its own.  At one reading of the clock they all show the same entries, so it makes no
difference to a look-up whether the expired ones were removed before it.
-/

namespace CodeSurvey
namespace Cache

variable {c : Cache v} {form : Form v} {now : Int} {key : String}

/-!
# Live entries
-/

theorem mem_entries_iff (hnodup : c.keys.Nodup) {e : Entry v} :
    e ∈ c.entries now ↔ c.find? e.key = some e ∧ c.has now e.key = true := by
  have hlive : e ∈ c.entries now ↔ e ∈ c.stored ∧ (!isExpired c.options now e) = true :=
    List.mem_filter
  rw [hlive]
  constructor
  · rintro ⟨he, hfresh⟩
    exact ⟨find?_of_mem hnodup he, (has_of_mem hnodup he).trans hfresh⟩
  · rintro ⟨hfind, hhas⟩
    have he := List.mem_of_find?_eq_some hfind
    exact ⟨he, (has_of_mem hnodup he).symm.trans hhas⟩

theorem has_iff (hnodup : c.keys.Nodup) :
    c.has now key = true ↔ key ∈ (c.entries now).map Entry.key := by
  rw [List.mem_map]
  constructor
  · intro hhas
    cases hfind : c.find? key with
    | none =>
        unfold has at hhas
        rw [hfind] at hhas
        cases hhas
    | some e =>
        have hkey := key_eq_of_find?_eq_some hfind
        subst hkey
        exact ⟨e, (mem_entries_iff hnodup).mpr ⟨hfind, hhas⟩, rfl⟩
  · rintro ⟨e, he, rfl⟩
    exact ((mem_entries_iff hnodup).mp he).2

theorem result_get_eq_some_iff (hnodup : c.keys.Nodup) {value : v} :
    (c.get now key).result = some value ↔
      exists e, e ∈ c.entries now ∧ e.key = key ∧ e.value = value := by
  rw [result_get]
  constructor
  · intro h
    rcases Option.ite_none_right_eq_some.mp h with ⟨hhas, hvalue⟩
    rcases Option.map_eq_some_iff.mp hvalue with ⟨e, hfind, rfl⟩
    have hkey := key_eq_of_find?_eq_some hfind
    subst hkey
    exact ⟨e, (mem_entries_iff hnodup).mpr ⟨hfind, hhas⟩, rfl, rfl⟩
  · rintro ⟨e, he, rfl, rfl⟩
    rcases (mem_entries_iff hnodup).mp he with ⟨hfind, hhas⟩
    unfold value?
    rw [if_pos hhas, hfind]
    rfl

theorem counts_get (c : Cache v) (now : Int) (key : String) :
    (c.get now key).state.hits = c.hits + (if c.has now key then 1 else 0) ∧
      (c.get now key).state.misses = c.misses + (if c.has now key then 0 else 1) := by
  cases hhas : c.has now key with
  | true =>
      rcases get_of_has hhas with ⟨_, e, _, hstate⟩
      rw [hstate]
      exact ⟨rfl, rfl⟩
  | false =>
      have hmisses := misses_get (get_of_not_has hhas).1
      generalize (c.get now key).state = c' at hmisses ⊢
      cases hmisses with
      | absent _ => exact ⟨rfl, rfl⟩
      | expired _ _ => exact ⟨rfl, rfl⟩

/-!
# Pruning
-/

theorem entries_prune (c : Cache v) (now : Int) :
    (c.prune now).state.entries now = c.entries now := by
  apply List.filter_eq_self.mpr
  intro e he
  exact (List.mem_filter.mp he).2

theorem prune_prune (c : Cache v) (now : Int) :
    ((c.prune now).state.prune now).result = 0 ∧
      ((c.prune now).state.prune now).state = (c.prune now).state := by
  have hnone : (c.entries now).filter (isExpired c.options now) = [] := by
    apply List.filter_eq_nil_iff.mpr
    intro e he
    have hfresh := (List.mem_filter.mp he).2
    rw [Bool.not_eq_true'] at hfresh
    rw [hfresh]
    exact Bool.false_ne_true
  have hcount : ((c.prune now).state.prune now).result = 0 := congrArg List.length hnone
  refine ⟨hcount, ?_⟩
  show { (c.prune now).state with
    stored := (c.prune now).state.entries now
    expirations := (c.prune now).state.expirations + ((c.prune now).state.prune now).result } = _
  rw [hcount, entries_prune]
  rfl

theorem nodup_keys_prune (hnodup : c.keys.Nodup) : (c.prune now).state.keys.Nodup :=
  hnodup.sublist (List.filter_sublist.map Entry.key)

theorem has_prune (hnodup : c.keys.Nodup) : (c.prune now).state.has now key = c.has now key := by
  apply Bool.eq_iff_iff.mpr
  rw [has_iff (nodup_keys_prune hnodup), has_iff hnodup, entries_prune]

theorem get_prune (hnodup : c.keys.Nodup) :
    ((c.prune now).state.get now key).result = (c.get now key).result := by
  apply Option.ext
  intro value
  rw [result_get_eq_some_iff (nodup_keys_prune hnodup), result_get_eq_some_iff hnodup,
    entries_prune]

/-!
# One answer
-/

/-- At one time, all ways of asking show the same live entries. -/
structure Agrees (form : Form v) (c : Cache v) (now : Int) : Prop where
  nodup : ((c.entries now).map Entry.key).Nodup
  has : forall key, c.has now key = true ↔ key ∈ (c.entries now).map Entry.key
  found : forall key, (c.get now key).result.isSome = true ↔
    key ∈ (c.entries now).map Entry.key
  value : forall key value, (c.get now key).result = some value ↔
    exists e, e ∈ c.entries now ∧ e.key = key ∧ e.value = value
  pruneCount : (c.prune now).result + (c.entries now).length = c.size
  pruned : (c.prune now).state.entries now = c.entries now
  size : (c.prune now).state.size = (c.entries now).length
  expirations : (c.prune now).state.expirations = c.expirations + (c.prune now).result
  prunedTwice : ((c.prune now).state.prune now).result = 0 ∧
    ((c.prune now).state.prune now).state = (c.prune now).state
  persisted : forall tree path, (c.persist form now tree path).result = .ok () ->
    exists (file : String) (d : Document v), c.resolvePath path = .ok file ∧
      d.InFile form (c.persist form now tree path).state file ∧
      d.entries = (c.entries now).reverse
  /-- A look-up after the expired entries were removed. -/
  get : forall key,
    ((c.prune now).state.get now key).result = (c.get now key).result ∧
      ((c.prune now).state.get now key).state.hits = (c.get now key).state.hits ∧
      ((c.prune now).state.get now key).state.misses = (c.get now key).state.misses

theorem agrees_of_nodup (hnodup : c.keys.Nodup) : Agrees form c now := by
  constructor
  case nodup => exact nodup_keys_prune hnodup
  case has => exact fun _ => has_iff hnodup
  case found =>
    intro key
    rw [isSome_get]
    exact has_iff hnodup
  case value => exact fun _ _ => result_get_eq_some_iff hnodup
  case pruneCount =>
    rw [countP_expired, Nat.add_comm]
    exact c.length_filter_add fun e => !isExpired c.options now e
  case pruned => exact entries_prune c now
  case size => rfl
  case expirations => rfl
  case prunedTwice => exact prune_prune c now
  case persisted =>
    intro tree path hpersist
    rcases inFile_persist hpersist with ⟨file, hfile, hdocument⟩
    exact ⟨file, c.document now, hfile, hdocument, rfl⟩
  case get =>
    intro key
    rcases c.counts_get now key with ⟨hhits, hmisses⟩
    rcases (c.prune now).state.counts_get now key with ⟨hhits', hmisses'⟩
    rw [has_prune hnodup] at hhits' hmisses'
    exact ⟨get_prune hnodup, hhits'.trans hhits.symm, hmisses'.trans hmisses.symm⟩

/-- Whatever happened to a cache, its views agree at every time that the clock may show.  The
entries that it writes can be read back as long as all that came in were words. -/
theorem agrees_run (form : Form v) (o : Options) (ms : List (Moment v)) (now : Int) :
    let c : Cache v := (new o).state.run form ms
    Agrees form c now ∧
      ((forall m, m ∈ ms -> m.Fits form) -> forall e, e ∈ c.entries now -> e.Fits) := by
  intro c
  refine ⟨agrees_of_nodup (nodup_keys_run form o ms), ?_⟩
  intro hms e he
  exact (fits_new o).run hms e (List.mem_of_mem_filter he)

end Cache
end CodeSurvey
