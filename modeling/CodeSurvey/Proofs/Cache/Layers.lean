import CodeSurvey.Proofs.Cache.Turnover
import CodeSurvey.Proofs.Cache.Reloading

/-!
# The map below the cache

The entries are kept in a map that forgets the least recently used slot by itself when it
is full.  The cache on top of this map makes room before it adds a key, and counts what it
takes out.  Both bounds are the same, so the map never comes to forget anything, and the
two layers together do what the cache says.
-/

namespace CodeSurvey
namespace Cache

/-!
# A map that forgets
-/

/-- A map with a fixed number of slots, the most recently used first. -/
structure LruMap (a : Type) where
  capacity : Nat
  slots : List (String × a)
  /-- How many slots were forgotten because the map was full. -/
  forgotten : Nat

namespace LruMap

variable {a : Type}

def peek? (m : LruMap a) (key : String) : Option a :=
  (m.slots.find? fun slot => slot.1 = key).map Prod.snd

def others (m : LruMap a) (key : String) : List (String × a) :=
  m.slots.filter fun slot => slot.1 ≠ key

def change (m : LruMap a) (key : String) (f : a -> a) : LruMap a :=
  match m.peek? key with
  | some x => { m with slots := (key, f x) :: m.others key }
  | none => m

/-- A new key in a full map makes it forget the last one. -/
def put (m : LruMap a) (key : String) (x : a) : LruMap a :=
  if (m.peek? key).isSome then { m with slots := (key, x) :: m.others key }
  else if m.slots.length < m.capacity then { m with slots := (key, x) :: m.slots }
  else { m with slots := (key, x) :: m.slots.dropLast, forgotten := m.forgotten + 1 }

def pop (m : LruMap a) (key : String) : LruMap a :=
  { m with slots := m.others key }

def popLast (m : LruMap a) : LruMap a :=
  { m with slots := m.slots.dropLast }

def clear (m : LruMap a) : LruMap a :=
  { m with slots := [] }

end LruMap

/-!
# The cache on top of it
-/

structure Layered (v : Type) where
  options : Options
  map : LruMap (Entry v)
  hits : Nat
  misses : Nat
  evictions : Nat
  expirations : Nat

namespace Layered

def new (options : Options) : Layered v :=
  let options := if options.maxSize = 0 then { options with maxSize := 1 } else options
  { options
    map := { capacity := options.maxSize, slots := [], forgotten := 0 }
    hits := 0
    misses := 0
    evictions := 0
    expirations := 0 }

/-- Room is made before the map has to make it. -/
def makeRoom (l : Layered v) : Layered v :=
  if l.options.maxSize ≤ l.map.slots.length then
    match l.map.slots.getLast? with
    | some _ => { l with map := l.map.popLast, evictions := l.evictions + 1 }
    | none => l
  else l

def insertNew (l : Layered v) (key : String) (e : Entry v) : Layered v :=
  { l.makeRoom with map := l.makeRoom.map.put key e }

def setSized (l : Layered v) (now : Int) (key : String) (value : v) (size : Nat) : Layered v :=
  match l.map.peek? key with
  | some _ =>
      { l with map := l.map.change key fun e => { e with value, size, timestamp := now } }
  | none => l.insertNew key { key, value, size, hits := 0, timestamp := now }

def get (l : Layered v) (now : Int) (key : String) : Layered v :=
  match l.map.peek? key with
  | none => { l with misses := l.misses + 1 }
  | some e =>
      if isExpired l.options now e then
        { l with
          map := l.map.pop key
          expirations := l.expirations + 1
          misses := l.misses + 1 }
      else
        { l with
          map := l.map.change key fun e => { e with hits := nextHits e.hits }
          hits := l.hits + 1 }

def popAll (l : Layered v) (keys : List String) : Layered v :=
  { l with map := keys.foldl LruMap.pop l.map }

def prune (l : Layered v) (now : Int) : Layered v :=
  let expired := l.map.slots.filter fun slot => isExpired l.options now slot.2
  let l := l.popAll (expired.map Prod.fst)
  { l with expirations := l.expirations + expired.length }

def merge (l : Layered v) (e : Entry v) : Layered v :=
  if (l.map.peek? e.key).isSome then { l with map := l.map.put e.key e }
  else l.insertNew e.key e

def load (l : Layered v) (form : Form v) (now : Int) (tree : Files.Tree)
    (path : Option String) : Layered v :=
  ((empty l.options).liveEntries form now tree path).foldl merge l

def act (form : Form v) (l : Layered v) (m : Moment v) : Layered v :=
  match m.operation with
  | .set key value => l.setSized m.now key value (form.size value)
  | .setSized key value size => l.setSized m.now key value size
  | .get key => l.get m.now key
  | .delete key => { l with map := l.map.pop key }
  | .invalidate key dependents => l.popAll (key :: dependents)
  | .clear => { l with map := l.map.clear }
  | .prune => l.prune m.now
  | .resetStats => { l with hits := 0, misses := 0, evictions := 0, expirations := 0 }
  | .load tree path => l.load form m.now tree path
  | .merge e => l.merge e
  | .has _ | .entries | .stats | .persist _ _ => l

def run (form : Form v) (l : Layered v) (ms : List (Moment v)) : Layered v :=
  ms.foldl (act form) l

end Layered

/-!
# A cache in layers
-/

variable {c : Cache v} {form : Form v} {now : Int} {key : String}

def LruMap.ofEntries (capacity : Nat) (es : List (Entry v)) : LruMap (Entry v) :=
  { capacity, slots := es.map fun e => (e.key, e), forgotten := 0 }

/-- The two layers of a cache, of the same capacity. -/
def layered (c : Cache v) : Layered v :=
  { options := c.options
    map := .ofEntries c.options.maxSize c.stored
    hits := c.hits
    misses := c.misses
    evictions := c.evictions
    expirations := c.expirations }

theorem layered_new (options : Options) :
    (Layered.new options : Layered v) = (Cache.new options).state.layered := by
  unfold Layered.new Cache.new
  split
  · rfl
  · rfl

namespace LruMap

variable {capacity : Nat} {es : List (Entry v)}

theorem length_ofEntries (capacity : Nat) (es : List (Entry v)) :
    (ofEntries capacity es).slots.length = es.length :=
  List.length_map _

theorem filter_ofEntries (capacity : Nat) (es : List (Entry v)) (keep : Entry v -> Bool) :
    ((ofEntries capacity es).slots.filter fun slot => keep slot.2) =
      (es.filter keep).map fun e => (e.key, e) := by
  unfold ofEntries
  rw [List.filter_map]
  rfl

theorem peek?_ofEntries (capacity : Nat) (es : List (Entry v)) (key : String) :
    (ofEntries capacity es).peek? key = es.find? fun e => e.key = key := by
  unfold peek? ofEntries
  rw [List.find?_map, Option.map_map]
  exact Option.map_id'

theorem pop_ofEntries (capacity : Nat) (es : List (Entry v)) (key : String) :
    (ofEntries capacity es).pop key = ofEntries capacity (es.filter fun e => e.key ≠ key) := by
  unfold pop others ofEntries
  rw [List.filter_map]
  rfl

theorem popLast_ofEntries (capacity : Nat) (others : List (Entry v)) (last : Entry v) :
    (ofEntries capacity (others ++ [last])).popLast = ofEntries capacity others := by
  unfold popLast ofEntries
  rw [List.map_append, List.map_singleton, List.dropLast_concat]

theorem change_ofEntries {e : Entry v} (h : es.find? (fun e => e.key = key) = some e)
    (f : Entry v -> Entry v) (hkey : (f e).key = key) :
    (ofEntries capacity es).change key f =
      ofEntries capacity (f e :: es.filter fun e => e.key ≠ key) := by
  have hpop := congrArg slots (pop_ofEntries capacity es key)
  have hothers : (ofEntries capacity es).others key = _ := hpop
  unfold change
  rw [peek?_ofEntries, h]
  simp only
  rw [hothers, ← hkey]
  rfl

theorem put_ofEntries_of_mem {e : Entry v} (h : e.key ∈ es.map Entry.key) :
    (ofEntries capacity es).put e.key e =
      ofEntries capacity (e :: es.filter fun other => other.key ≠ e.key) := by
  have hpop := congrArg slots (pop_ofEntries capacity es e.key)
  have hothers : (ofEntries capacity es).others e.key = _ := hpop
  have hfound : ((ofEntries capacity es).peek? e.key).isSome = true := by
    rcases List.mem_map.mp h with ⟨other, hmem, hkey⟩
    rw [peek?_ofEntries, List.find?_isSome]
    exact ⟨other, hmem, decide_eq_true hkey⟩
  unfold put
  rw [if_pos hfound, hothers]
  rfl

theorem put_ofEntries_of_lt {e : Entry v} (h : e.key ∉ es.map Entry.key)
    (hroom : es.length < capacity) :
    (ofEntries capacity es).put e.key e = ofEntries capacity (e :: es) := by
  have hfound : ¬((ofEntries capacity es).peek? e.key).isSome = true := by
    rw [peek?_ofEntries, List.find?_isSome]
    rintro ⟨other, hmem, hkey⟩
    exact h (List.mem_map.mpr ⟨other, hmem, of_decide_eq_true hkey⟩)
  unfold put
  rw [if_neg hfound, length_ofEntries]
  exact if_pos hroom

theorem foldl_pop_ofEntries (capacity : Nat) (es : List (Entry v)) (keys : List String) :
    keys.foldl pop (ofEntries capacity es) =
      ofEntries capacity (es.filter fun e => e.key ∉ keys) := by
  induction keys generalizing es with
  | nil =>
      have hall : (es.filter fun e => e.key ∉ []) = es :=
        List.filter_eq_self.mpr fun e _ => decide_eq_true List.not_mem_nil
      rw [hall]
      rfl
  | cons key keys ih =>
      rw [List.foldl_cons, pop_ofEntries, ih, List.filter_filter]
      apply congrArg (ofEntries capacity)
      apply List.filter_congr
      intro e _
      simp [Bool.and_comm]

end LruMap

/-!
# Both layers do what the cache does
-/

theorem put_layered_of_lt {e : Entry v} (hkey : e.key ∉ c.keys)
    (hroom : c.size < c.options.maxSize) :
    { c.layered with map := c.layered.map.put e.key e } =
      layered { c with stored := e :: c.stored } := by
  unfold layered
  simp only
  rw [LruMap.put_ofEntries_of_lt hkey hroom]

theorem makeRoom_layered_of_lt (hroom : c.size < c.options.maxSize) :
    c.layered.makeRoom = c.layered := by
  have hlength : c.layered.map.slots.length = c.size := LruMap.length_ofEntries _ _
  unfold Layered.makeRoom
  rw [hlength]
  exact if_neg (Nat.not_le.mpr hroom)

theorem makeRoom_layered_of_le {others : List (Entry v)} {last : Entry v}
    (hfull : c.options.maxSize ≤ c.size) (hstored : c.stored = others ++ [last]) :
    c.layered.makeRoom =
      layered { c with stored := others, evictions := c.evictions + 1 } := by
  have hlength : c.layered.map.slots.length = c.size := LruMap.length_ofEntries _ _
  have hlast : c.layered.map.slots.getLast? = some (last.key, last) := by
    show (c.stored.map _).getLast? = _
    rw [hstored, List.map_append]
    exact List.getLast?_concat
  have hpop : c.layered.map.popLast = LruMap.ofEntries c.options.maxSize others := by
    show (LruMap.ofEntries _ c.stored).popLast = _
    rw [hstored]
    exact LruMap.popLast_ofEntries _ _ _
  unfold Layered.makeRoom
  rw [hlength, hlast, hpop]
  exact if_pos hfull

/-- Without the last entry there is room, and it was the cache that made it. -/
theorem insertNew_layered (h : Kept c) {e : Entry v} (hkey : e.key ∉ c.keys) :
    c.layered.insertNew e.key e = (c.merge e).state.layered := by
  unfold Layered.insertNew
  cases Nat.lt_or_ge c.size c.options.maxSize with
  | inl hroom =>
      rw [makeRoom_layered_of_lt hroom, state_merge_of_lt hkey hroom]
      exact put_layered_of_lt hkey hroom
  | inr hfull =>
      rcases exists_last h.roomy hfull with ⟨others, last, hstored⟩
      let c' : Cache v := { c with stored := others, evictions := c.evictions + 1 }
      have hkey' : e.key ∉ c'.keys := by
        intro hmem
        apply hkey
        unfold keys
        rw [hstored, List.map_append]
        exact List.mem_append_left _ hmem
      have hroom : c'.size < c'.options.maxSize := by
        have hle := h.size_le
        unfold size at hle
        rw [hstored, List.length_append] at hle
        exact hle
      rw [makeRoom_layered_of_le hfull hstored, state_merge_of_le hkey hfull hstored]
      exact put_layered_of_lt hkey' hroom

theorem merge_layered (h : Kept c) (e : Entry v) :
    c.layered.merge e = (c.merge e).state.layered := by
  have hpeek : c.layered.map.peek? e.key = c.find? e.key := LruMap.peek?_ofEntries _ _ _
  unfold Layered.merge
  rw [hpeek]
  by_cases hmem : e.key ∈ c.keys
  · have hfound : (c.find? e.key).isSome = true := by
      rw [Option.isSome_iff_ne_none]
      intro hnone
      exact find?_eq_none_iff.mp hnone hmem
    rw [if_pos hfound, state_merge_of_mem hmem]
    unfold layered
    rw [LruMap.put_ofEntries_of_mem hmem]
    rfl
  · rw [find?_eq_none_iff.mpr hmem, if_neg (by simp)]
    exact insertNew_layered h hmem

theorem foldl_merge_layered (h : Kept c) (entries : List (Entry v)) :
    entries.foldl Layered.merge c.layered =
      (entries.foldl (fun c e => (c.merge e).state) c).layered := by
  induction entries generalizing c with
  | nil => rfl
  | cons e entries ih =>
      rw [List.foldl_cons, merge_layered h]
      exact ih ((effect_merge h e).kept h)

theorem setSized_layered (h : Kept c) (now : Int) (key : String) (value : v) (size : Nat) :
    c.layered.setSized now key value size = (c.setSized now key value size).state.layered := by
  have hpeek : c.layered.map.peek? key = c.find? key := LruMap.peek?_ofEntries _ _ _
  unfold Layered.setSized setSized
  rw [hpeek]
  cases hfind : c.find? key with
  | some e =>
      have hkey := key_eq_of_find?_eq_some hfind
      let written : Entry v -> Entry v := fun e => { e with value, size, timestamp := now }
      simp only
      unfold layered
      rw [LruMap.change_ofEntries hfind written hkey]
      rfl
  | none =>
      let e : Entry v := { key, value, size, hits := 0, timestamp := now }
      have hkey : e.key ∉ c.keys := find?_eq_none_iff.mp hfind
      show c.layered.insertNew e.key e = (c.insertNew e).state.layered
      rw [insertNew_layered h hkey, merge_of_not_mem hkey]

theorem get_layered (c : Cache v) (now : Int) (key : String) :
    c.layered.get now key = (c.get now key).state.layered := by
  have hpeek : c.layered.map.peek? key = c.find? key := LruMap.peek?_ofEntries _ _ _
  unfold Layered.get get
  rw [hpeek]
  cases hfind : c.find? key with
  | none => rfl
  | some e =>
      have hkey := key_eq_of_find?_eq_some hfind
      let found : Entry v -> Entry v := fun e => { e with hits := nextHits e.hits }
      simp only
      unfold layered
      rw [LruMap.pop_ofEntries, LruMap.change_ofEntries hfind found hkey]
      split
      · rfl
      · rfl

theorem pop_layered (c : Cache v) (key : String) :
    { c.layered with map := c.layered.map.pop key } =
      layered { c with stored := c.without key } := by
  unfold layered
  simp only
  rw [LruMap.pop_ofEntries]
  rfl

theorem popAll_layered (c : Cache v) (keys : List String) :
    c.layered.popAll keys =
      layered { c with stored := c.stored.filter fun e => e.key ∉ keys } := by
  unfold Layered.popAll layered
  rw [LruMap.foldl_pop_ofEntries]

theorem prune_layered (h : Kept c) (now : Int) :
    c.layered.prune now = (c.prune now).state.layered := by
  let expired := c.stored.filter (isExpired c.options now)
  have hslots : (c.layered.map.slots.filter fun slot => isExpired c.layered.options now slot.2) =
      expired.map fun e => (e.key, e) :=
    LruMap.filter_ofEntries _ _ (isExpired c.options now)
  have hkeys : (expired.map fun e => (e.key, e)).map Prod.fst = expired.map Entry.key :=
    List.map_map
  have hlive : (c.stored.filter fun e => e.key ∉ expired.map Entry.key) = c.entries now := by
    apply List.filter_congr
    intro e he
    have hiff := mem_map_key_filter_iff h.nodup (isExpired c.options now) he
    simp only [expired, hiff, Bool.decide_eq_true, decide_not]
  unfold Layered.prune
  rw [hslots]
  simp only
  rw [hkeys, popAll_layered, hlive, List.length_map]
  rfl

theorem layered_act (h : Kept c) (form : Form v) (m : Moment v) :
    c.layered.act form m = (c.act form m).layered := by
  rcases m with ⟨now, operation⟩
  cases operation with
  | set key value => exact setSized_layered h now key value _
  | setSized key value size => exact setSized_layered h now key value size
  | get key => exact get_layered c now key
  | delete key =>
      show _ = (c.delete key).1.layered
      rw [fst_delete]
      exact c.pop_layered key
  | invalidate key dependents =>
      show _ = (c.deleteAll (key :: dependents)).1.layered
      rw [fst_deleteAll]
      exact popAll_layered c _
  | prune => exact prune_layered h now
  | load tree path =>
      show List.foldl _ _ _ = (c.load form now tree path).state.layered
      rw [state_load, ← foldl_merge_layered h]
      rfl
  | merge e => exact merge_layered h e
  | _ => rfl

theorem layered_run (h : Kept c) (form : Form v) (ms : List (Moment v)) :
    c.layered.run form ms = (c.run form ms).layered := by
  induction ms generalizing c with
  | nil => rfl
  | cons m ms ih =>
      show (c.layered.act form m).run form ms = _
      rw [layered_act h form m]
      exact ih (h.act form m)

/-!
# Capacity and accounting
-/

/-- What a cache and its map look like together. -/
structure InStep (l : Layered v) (c : Cache v) : Prop where
  options : l.options = c.options
  entries : l.map.slots.map Prod.snd = c.stored
  own_key : forall slot, slot ∈ l.map.slots -> slot.1 = slot.2.key
  forgotten : l.map.forgotten = 0
  hits : l.hits = c.hits
  misses : l.misses = c.misses
  evictions : l.evictions = c.evictions
  expirations : l.expirations = c.expirations

theorem inStep_layered (c : Cache v) : InStep c.layered c where
  options := rfl
  entries := by
    show (c.stored.map fun e => (e.key, e)).map Prod.snd = c.stored
    rw [List.map_map]
    exact List.map_id' _
  own_key := by
    intro slot hslot
    rcases List.mem_map.mp hslot with ⟨e, _, rfl⟩
    rfl
  forgotten := rfl
  hits := rfl
  misses := rfl
  evictions := rfl
  expirations := rfl

/-- Whatever is done with a new cache, and whatever the clock shows and the files hold, it
keeps its bound without a loss in the map below; and as long as nobody sets the counters to
zero, they account for every key that came and went. -/
theorem bounded_run (form : Form v) (options : Options) (ms : List (Moment v)) :
    let c : Cache v := (Cache.new options).state.run form ms
    let l := (Ledger.start options).run form ms
    l.cache = c ∧ c.size ≤ max options.maxSize 1 ∧ c.keys.Nodup ∧
      InStep ((Layered.new options).run form ms) c ∧
      ((forall m, m ∈ ms -> m.operation ≠ .resetStats) -> l.Balanced) := by
  intro c l
  have hnew : (Cache.new options).state = (empty { options with
      maxSize := max options.maxSize 1 } : Cache v) := state_new options
  have hroom : 1 ≤ max options.maxSize 1 := Nat.le_max_right _ _
  have hstart : Kept ((Cache.new options).state : Cache v) := by
    rw [hnew]
    exact kept_empty hroom
  have hkept : Kept c := hstart.run form ms
  refine ⟨Ledger.cache_run form _ ms, ?_, hkept.nodup, ?_, ?_⟩
  · have hoptions : c.options = (Cache.new options : Log.Outcome (Cache v) Unit).state.options :=
      options_run form _ ms
    have hle := hkept.size_le
    rw [hoptions, hnew] at hle
    exact hle
  · rw [layered_new, layered_run hstart]
    exact inStep_layered c
  · intro hreset
    exact (Ledger.balanced_start options).run hstart hreset

/-- With room for one key, the second one displaces the first. -/
example :
    ((Ledger.start { Options.default with maxSize := 1 } : Ledger String).run .text
      [⟨0, .set "a" "1"⟩, ⟨0, .set "b" "2"⟩, ⟨1, .get "a"⟩, ⟨2, .delete "b"⟩]).total =
      { arrivals := 2, displaced := 1, removed := 1, lookups := 1 } := by
  decide +kernel

end Cache
end CodeSurvey
