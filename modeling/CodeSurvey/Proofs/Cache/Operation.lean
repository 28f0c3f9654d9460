import CodeSurvey.Cache.Document
import Mathlib.Data.List.Nodup

/-!
# What can happen to a cache

Everything that happens to a cache is a sequence of operations, each at an instant of its
own.  The clock may show anything, and so may the files.  What a load writes is a sequence
of operations too: the live entries of a file are merged one after the other.
-/

namespace CodeSurvey
namespace Cache

inductive Operation (v : Type) where
  | set (key : String) (value : v)
  | setSized (key : String) (value : v) (size : Nat)
  | get (key : String)
  | has (key : String)
  | delete (key : String)
  | invalidate (key : String) (dependents : List String)
  | clear
  | prune
  | entries
  | stats
  | resetStats
  | persist (tree : Files.Tree) (path : Option String)
  | load (tree : Files.Tree) (path : Option String)
  /-- One entry of a file that is being loaded. -/
  | merge (e : Entry v)

namespace Operation

def written? : Operation v -> Option String
  | .set key _ | .setSized key _ _ => some key
  | .merge e => some e.key
  | _ => none

end Operation

/-- An operation, with what the clock shows. -/
structure Moment (v : Type) where
  now : Int
  operation : Operation v

def act (form : Form v) (c : Cache v) (m : Moment v) : Cache v :=
  match m.operation with
  | .set key value => (c.set form m.now key value).state
  | .setSized key value size => (c.setSized m.now key value size).state
  | .get key => (c.get m.now key).state
  | .delete key => (c.delete key).1
  | .invalidate key dependents => (c.invalidate key dependents).state
  | .clear => c.clear
  | .prune => (c.prune m.now).state
  | .resetStats => c.resetStats
  | .load tree path => (c.load form m.now tree path).state
  | .merge e => (c.merge e).state
  -- The others give back no cache: they only read the one that there is.
  | .has _ | .entries | .stats | .persist _ _ => c

def run (form : Form v) (c : Cache v) (ms : List (Moment v)) : Cache v :=
  ms.foldl (act form) c

variable {c : Cache v} {form : Form v} {now : Int} {key : String}

theorem exists_new_eq (options : Options) :
    exists o : Options, 1 ≤ o.maxSize ∧
      (new options : Log.Outcome (Cache v) Unit).state = empty o := by
  unfold new
  split
  next => exact ⟨{ options with maxSize := 1 }, Nat.le_refl 1, rfl⟩
  next hne => exact ⟨options, Nat.one_le_iff_ne_zero.mpr hne, rfl⟩

/-!
# Stored keys
-/

theorem find?_eq_none_iff : c.find? key = none ↔ key ∉ c.keys := by
  unfold find? keys
  rw [List.find?_eq_none, List.mem_map]
  constructor
  · rintro h ⟨e, he, heq⟩
    exact h e he (decide_eq_true heq)
  · intro h e he hkey
    exact h ⟨e, he, of_decide_eq_true hkey⟩

theorem key_eq_of_find?_eq_some {e : Entry v} (h : c.find? key = some e) : e.key = key := by
  have hfound := List.find?_some h
  exact of_decide_eq_true hfound

theorem mem_keys_of_find?_eq_some {e : Entry v} (h : c.find? key = some e) :
    key ∈ c.keys := by
  by_contra hnot
  rw [find?_eq_none_iff.mpr hnot] at h
  cases h

theorem map_key_without (c : Cache v) (key : String) :
    (c.without key).map Entry.key = c.keys.filter (· ≠ key) := by
  unfold without keys
  rw [List.filter_map]
  rfl

/-!
# Writing an entry

However an entry is written, the cache is the same as if it had been merged.
-/

theorem state_merge_of_mem {e : Entry v} (h : e.key ∈ c.keys) :
    (c.merge e).state = { c with stored := e :: c.without e.key } := by
  unfold merge
  split
  next => rfl
  next hnone => exact absurd h (find?_eq_none_iff.mp hnone)

theorem merge_of_not_mem {e : Entry v} (h : e.key ∉ c.keys) : c.merge e = c.insertNew e := by
  unfold merge
  rw [find?_eq_none_iff.mpr h]

theorem state_merge_of_lt {e : Entry v} (h : e.key ∉ c.keys)
    (hroom : c.size < c.options.maxSize) :
    (c.merge e).state = { c with stored := e :: c.stored } := by
  rw [merge_of_not_mem h]
  unfold insertNew
  split
  next => rw [if_neg (Nat.not_le.mpr hroom)]; rfl
  next hnone => rw [List.getLast?_eq_none_iff.mp hnone]; rfl

theorem state_merge_of_le {e last : Entry v} {rest : List (Entry v)} (h : e.key ∉ c.keys)
    (hfull : c.options.maxSize ≤ c.size) (hstored : c.stored = rest ++ [last]) :
    (c.merge e).state =
      { c with stored := e :: rest, evictions := c.evictions + 1 } := by
  rw [merge_of_not_mem h]
  unfold insertNew
  rw [hstored, List.getLast?_concat, List.dropLast_concat]
  simp only
  rw [if_pos hfull]

theorem exists_hits_setSized (c : Cache v) (now : Int) (key : String) (value : v)
    (size : Nat) :
    exists hits, (c.setSized now key value size).state =
      (c.merge { key, value, size, hits, timestamp := now }).state := by
  unfold setSized
  cases hfind : c.find? key with
  | some old =>
      have hkey := key_eq_of_find?_eq_some hfind
      subst hkey
      let e : Entry v := { old with value, size, timestamp := now }
      have hmem : e.key ∈ c.keys := mem_keys_of_find?_eq_some hfind
      exact ⟨old.hits, (state_merge_of_mem hmem).symm⟩
  | none =>
      refine ⟨0, ?_⟩
      rw [merge_of_not_mem (find?_eq_none_iff.mp hfind)]

theorem exists_merge_eq (c : Cache v) (form : Form v) {m : Moment v}
    (hm : m.operation.written? = some key) :
    exists e, e.key = key ∧ c.act form m = (c.merge e).state := by
  rcases m with ⟨now, operation⟩
  cases operation with
  | set k value =>
      cases hm
      rcases c.exists_hits_setSized now key value (form.size value) with ⟨hits, hset⟩
      exact ⟨_, rfl, hset⟩
  | setSized k value size =>
      cases hm
      rcases c.exists_hits_setSized now key value size with ⟨hits, hset⟩
      exact ⟨_, rfl, hset⟩
  | merge e =>
      cases hm
      exact ⟨e, rfl, rfl⟩
  | _ => cases hm

theorem options_merge (c : Cache v) (e : Entry v) : (c.merge e).state.options = c.options := by
  unfold merge
  split
  · rfl
  · unfold insertNew
    split
    · split
      · rfl
      · rfl
    · rfl

/-!
# Reading and removing
-/

theorem without_eq_stored (h : key ∉ c.keys) : c.without key = c.stored := by
  unfold without
  apply List.filter_eq_self.mpr
  intro e he
  apply decide_eq_true
  intro heq
  exact h (heq ▸ List.mem_map_of_mem he)

theorem key_ne_of_stored (hnodup : c.keys.Nodup) {before after : List (Entry v)} {e : Entry v}
    (hstored : c.stored = before ++ e :: after) {other : Entry v}
    (hother : other ∈ before ++ after) : other.key ≠ e.key := by
  unfold keys at hnodup
  rw [hstored, List.map_append, List.map_cons, List.nodup_middle, ← List.map_append,
    List.nodup_cons] at hnodup
  exact fun heq => hnodup.1 (heq ▸ List.mem_map_of_mem hother)

theorem without_of_stored (hnodup : c.keys.Nodup) {before after : List (Entry v)} {e : Entry v}
    (hstored : c.stored = before ++ e :: after) : c.without e.key = before ++ after := by
  unfold without
  rw [hstored, List.filter_append, List.filter_cons_of_neg (by simp), ← List.filter_append]
  apply List.filter_eq_self.mpr
  exact fun other hother => decide_eq_true (key_ne_of_stored hnodup hstored hother)

theorem find?_of_mem (hnodup : c.keys.Nodup) {e : Entry v} (he : e ∈ c.stored) :
    c.find? e.key = some e := by
  cases hfind : c.find? e.key with
  | none => exact absurd (List.mem_map_of_mem he) (find?_eq_none_iff.mp hfind)
  | some found =>
      have hkey := key_eq_of_find?_eq_some hfind
      have hmem := List.mem_of_find?_eq_some hfind
      rw [List.inj_on_of_nodup_map hnodup hmem he hkey]

theorem has_of_mem (hnodup : c.keys.Nodup) {e : Entry v} (he : e ∈ c.stored) :
    c.has now e.key = !isExpired c.options now e := by
  unfold has
  rw [find?_of_mem hnodup he]

theorem get_of_has (h : c.has now key = true) :
    (c.get now key).result.isSome ∧ exists e, e.key = key ∧
      (c.get now key).state =
        { c with stored := e :: c.without key, hits := c.hits + 1 } := by
  unfold has at h
  unfold get
  cases hfind : c.find? key with
  | none =>
      rw [hfind] at h
      cases h
  | some e =>
      rw [hfind, Bool.not_eq_true'] at h
      simp only
      rw [h]
      have hkey := key_eq_of_find?_eq_some hfind
      exact ⟨rfl, { e with hits := nextHits e.hits }, hkey, rfl⟩

theorem isSome_get (c : Cache v) (now : Int) (key : String) :
    (c.get now key).result.isSome = c.has now key := by
  unfold get has
  cases c.find? key with
  | none => rfl
  | some e =>
      cases hexpired : isExpired c.options now e with
      | true => simp [hexpired]
      | false => simp [hexpired, Log.Outcome.quiet]

/-- What looking up a key does when no live value is stored for it. -/
inductive Misses (c : Cache v) (now : Int) (key : String) : Cache v -> Prop where
  | absent (h : c.find? key = none) : Misses c now key { c with misses := c.misses + 1 }
  /-- The removal of the entry counts as an expiration. -/
  | expired (h : c.find? key = some e) (hexpired : isExpired c.options now e = true) :
      Misses c now key { c with
        stored := c.without key, misses := c.misses + 1, expirations := c.expirations + 1 }

theorem misses_get (h : (c.get now key).result = none) :
    c.Misses now key (c.get now key).state := by
  unfold get at h ⊢
  split
  next hfind => exact .absent hfind
  next e hfind =>
    rw [hfind] at h
    simp only at h
    split
    next hexpired => exact .expired hfind hexpired
    next hexpired =>
      rw [if_neg hexpired] at h
      cases h

theorem get_of_not_has (h : c.has now key = false) :
    (c.get now key).result = none ∧ exists misses expirations,
      (c.get now key).state = { c with stored := c.without key, misses, expirations } := by
  have hnone : (c.get now key).result = none := by
    rw [← Option.not_isSome_iff_eq_none, isSome_get, h]
    exact Bool.false_ne_true
  have hmisses := misses_get hnone
  generalize (c.get now key).state = c' at hmisses ⊢
  refine ⟨hnone, ?_⟩
  cases hmisses with
  | absent hfind =>
      rw [without_eq_stored (find?_eq_none_iff.mp hfind)]
      exact ⟨c.misses + 1, c.expirations, rfl⟩
  | expired _ _ => exact ⟨c.misses + 1, c.expirations + 1, rfl⟩

theorem fst_delete (c : Cache v) (key : String) :
    (c.delete key).1 = { c with stored := c.without key } := by
  unfold delete
  split
  next => rfl
  next hnone => rw [without_eq_stored (find?_eq_none_iff.mp hnone)]

theorem fst_deleteAll (c : Cache v) (keys : List String) :
    (c.deleteAll keys).1 = { c with stored := c.stored.filter fun e => e.key ∉ keys } := by
  have hfold : (c.deleteAll keys).1 = keys.foldl (fun c key => (c.delete key).1) c :=
    (List.foldl_hom Prod.fst fun _ _ => rfl).symm
  rw [hfold]
  clear hfold
  induction keys generalizing c with
  | nil =>
      have hall : (c.stored.filter fun e => e.key ∉ []) = c.stored :=
        List.filter_eq_self.mpr fun e _ => decide_eq_true List.not_mem_nil
      rw [hall]
      rfl
  | cons key keys ih =>
      rw [List.foldl_cons, fst_delete, ih]
      unfold without
      rw [List.filter_filter]
      congr 1
      apply List.filter_congr
      intro e _
      simp [Bool.and_comm]

/-!
# Loading
-/

/-- The entries that a load writes, in the order of the file. -/
def liveEntries (c : Cache v) (form : Form v) (now : Int) (tree : Files.Tree)
    (path : Option String) : List (Entry v) :=
  match c.readDocument form tree path with
  | .error _ => []
  | .ok (_, document) => document.entries.filter fun e => !isExpired c.options now e

theorem state_mergeAll (c : Cache v) (entries : List (Entry v)) :
    (c.mergeAll entries).state = entries.foldl (fun c e => (c.merge e).state) c :=
  (List.foldl_hom Log.Outcome.state fun _ _ => rfl).symm

theorem state_load (c : Cache v) (form : Form v) (now : Int) (tree : Files.Tree)
    (path : Option String) :
    (c.load form now tree path).state =
      (c.liveEntries form now tree path).foldl (fun c e => (c.merge e).state) c := by
  rw [← state_mergeAll]
  unfold load liveEntries
  cases c.readDocument form tree path with
  | error e => rfl
  | ok found => rfl

theorem result_load {tree : Files.Tree} {path : Option String} {found : String × Document v}
    (h : c.readDocument form tree path = .ok found) :
    (c.load form now tree path).result = .ok (c.liveEntries form now tree path).length := by
  unfold load liveEntries
  rw [h]

/-!
# Touching and sparing

An entry is touched where it is written or found by a look-up.  An operation that writes
nothing changes the order of the keys for the one that it touches, and takes a key out for
a reason of its own, which is never that there is no room.
-/

/-- The keys that an operation touches, the latest first. -/
def touched (form : Form v) (c : Cache v) (m : Moment v) : List String :=
  match m.operation with
  | .set key _ | .setSized key _ _ => [key]
  | .get key => if (c.get m.now key).result.isSome then [key] else []
  | .load tree path => ((c.liveEntries form m.now tree path).map Entry.key).reverse
  | .merge e => [e.key]
  | _ => []

theorem touched_of_written {m : Moment v} (hm : m.operation.written? = some key) :
    c.touched form m = [key] := by
  rcases m with ⟨now, operation⟩
  cases operation with
  | set k value => cases hm; rfl
  | setSized k value size => cases hm; rfl
  | merge e => cases hm; rfl
  | _ => cases hm

/-- Why a key that was stored is gone after an operation that writes nothing. -/
def Removes (c : Cache v) (m : Moment v) (key : String) : Prop :=
  match m.operation with
  | .delete k => key = k
  | .invalidate k dependents => key ∈ k :: dependents
  | .clear => True
  | .get k => key = k ∧ c.has m.now key = false
  | .prune => c.has m.now key = false
  | _ => False

/-- An operation that writes nothing leaves the keys in their order, but for the one that
it touches, and no key goes for lack of room. -/
structure Spares (form : Form v) (c : Cache v) (m : Moment v) (c' : Cache v) : Prop where
  options : c'.options = c.options
  touched : (c.touched form m = [] ∧ c'.keys.Sublist c.keys) ∨
    exists key, c.touched form m = [key] ∧ c'.keys = key :: c.keys.filter (· ≠ key)
  kept : forall key, key ∈ c.keys -> key ∈ c'.keys ∨ Removes c m key
  evictions : m.operation ≠ .resetStats -> c'.evictions = c.evictions

theorem spares_self {m : Moment v} (hm : c.touched form m = []) : Spares form c m c where
  options := rfl
  touched := Or.inl ⟨hm, List.Sublist.refl _⟩
  kept := fun _ hkey => Or.inl hkey
  evictions := fun _ => rfl

/-- Entries are only taken out, each for a reason. -/
theorem spares_filter {m : Moment v} (hm : c.touched form m = []) {c' : Cache v}
    {keep : Entry v -> Bool} {expirations : Nat}
    (hc : c' = { c with stored := c.stored.filter keep, expirations })
    (hreason : forall e, e ∈ c.stored -> keep e = false -> Removes c m e.key) :
    Spares form c m c' := by
  subst hc
  constructor
  case options => rfl
  case touched => exact Or.inl ⟨hm, List.filter_sublist.map Entry.key⟩
  case kept =>
    intro key hkey
    rcases List.mem_map.mp hkey with ⟨e, he, rfl⟩
    cases hkeep : keep e with
    | true => exact Or.inl (List.mem_map_of_mem (List.mem_filter.mpr ⟨he, hkeep⟩))
    | false => exact Or.inr (hreason e he hkeep)
  case evictions => exact fun _ => rfl

theorem spares_get (form : Form v) (c : Cache v) (now : Int) (key : String) :
    Spares form c ⟨now, .get key⟩ (c.get now key).state := by
  cases hhas : c.has now key with
  | true =>
      rcases get_of_has hhas with ⟨hresult, e, rfl, hstate⟩
      have hkeys : (c.get now e.key).state.keys = e.key :: c.keys.filter (· ≠ e.key) := by
        rw [hstate]
        exact congrArg _ (c.map_key_without e.key)
      constructor
      case options => rw [hstate]
      case touched => exact Or.inr ⟨e.key, if_pos hresult, hkeys⟩
      case kept =>
        intro other hother
        apply Or.inl
        rw [hkeys, List.mem_cons, List.mem_filter, decide_eq_true_iff]
        by_cases heq : other = e.key
        · exact Or.inl heq
        · exact Or.inr ⟨hother, heq⟩
      case evictions => intro _; rw [hstate]
  | false =>
      rcases get_of_not_has hhas with ⟨hresult, misses, expirations, hstate⟩
      have hkeys : (c.get now key).state.keys = c.keys.filter (· ≠ key) := by
        rw [hstate]
        exact c.map_key_without key
      constructor
      case options => rw [hstate]
      case touched =>
        have hnone : c.touched form ⟨now, .get key⟩ = [] := by
          unfold touched
          simp only
          rw [hresult]
          rfl
        exact Or.inl ⟨hnone, hkeys ▸ List.filter_sublist⟩
      case kept =>
        intro other hother
        by_cases heq : other = key
        · exact Or.inr ⟨heq, heq ▸ hhas⟩
        · apply Or.inl
          rw [hkeys, List.mem_filter, decide_eq_true_iff]
          exact ⟨hother, heq⟩
      case evictions => intro _; rw [hstate]

theorem spares_act (form : Form v) (hnodup : c.keys.Nodup) {m : Moment v}
    (hwritten : m.operation.written? = none)
    (hload : forall tree path, m.operation ≠ .load tree path) :
    Spares form c m (c.act form m) := by
  rcases m with ⟨now, operation⟩
  cases operation with
  | set key value => cases hwritten
  | setSized key value size => cases hwritten
  | get key => exact spares_get form c now key
  | delete key =>
      apply spares_filter rfl (fst_delete c key)
      intro e _ hkeep
      have hkey := of_decide_eq_false hkeep
      exact of_not_not hkey
  | invalidate key dependents =>
      apply spares_filter rfl (fst_deleteAll c (key :: dependents))
      intro e _ hkeep
      have hkey := of_decide_eq_false hkeep
      exact of_not_not hkey
  | clear =>
      have hnone : c.stored.filter (fun _ => false) = [] := by simp
      have hclear : c.clear = { c with stored := c.stored.filter fun _ => false } := by
        rw [hnone]
        rfl
      exact spares_filter rfl hclear fun _ _ _ => trivial
  | prune =>
      apply spares_filter rfl (show (c.prune now).state = _ from rfl)
      intro e he hkeep
      exact (has_of_mem hnodup he).trans hkeep
  | resetStats =>
      constructor
      case options => rfl
      case touched => exact Or.inl ⟨rfl, List.Sublist.refl _⟩
      case kept => exact fun _ hkey => Or.inl hkey
      case evictions => exact fun hne => absurd rfl hne
  | load tree path => exact absurd rfl (hload tree path)
  | merge e => cases hwritten
  | _ => exact spares_self rfl

end Cache
end CodeSurvey
