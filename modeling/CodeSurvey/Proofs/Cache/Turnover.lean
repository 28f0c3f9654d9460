import CodeSurvey.Proofs.Cache.Recency

/-!
# Coming and going

Entries come to a cache when a new key is written.  They go because there is no room for a
new one, because they have expired, or because they were removed on demand.  A ledger books
all of this beside the cache, from what is stored before and after an operation, and its
sums agree with the counters of the cache.
-/

namespace CodeSurvey
namespace Cache

variable {c c' : Cache v} {form : Form v} {key : String}

structure Kept (c : Cache v) : Prop where
  nodup : c.keys.Nodup
  roomy : 1 ≤ c.options.maxSize
  size_le : c.size ≤ c.options.maxSize

theorem kept_empty {o : Options} (hroom : 1 ≤ o.maxSize) : Kept (empty o : Cache v) where
  nodup := List.nodup_nil
  roomy := hroom
  size_le := Nat.zero_le _

/-!
# Keys that are gone
-/

def gone (c c' : Cache v) : Nat :=
  c.keys.countP fun key => key ∉ c'.keys

theorem mem_map_key_filter_iff (hnodup : c.keys.Nodup) (keep : Entry v -> Bool)
    {e : Entry v} (he : e ∈ c.stored) :
    e.key ∈ (c.stored.filter keep).map Entry.key ↔ keep e = true := by
  constructor
  · intro hmem
    rcases List.mem_map.mp hmem with ⟨other, hother, heq⟩
    rcases List.mem_filter.mp hother with ⟨hstored, hkeep⟩
    rw [← List.inj_on_of_nodup_map hnodup hstored he heq]
    exact hkeep
  · intro hkeep
    exact List.mem_map_of_mem (List.mem_filter.mpr ⟨he, hkeep⟩)

theorem gone_eq_countP (hnodup : c.keys.Nodup) (c' : Cache v) {fresh : List String}
    {keep : Entry v -> Bool} (hkeys : c'.keys = fresh ++ (c.stored.filter keep).map Entry.key)
    (hfresh : forall key, key ∈ fresh -> key ∉ c.keys) :
    c.gone c' = c.stored.countP fun e => !keep e := by
  unfold gone
  rw [hkeys]
  show (c.stored.map Entry.key).countP _ = _
  rw [List.countP_map]
  apply List.countP_congr
  intro e he
  have hnew : e.key ∉ fresh := fun hmem => hfresh e.key hmem (List.mem_map_of_mem he)
  show decide (e.key ∉ fresh ++ (c.stored.filter keep).map Entry.key) = true ↔ (!keep e) = true
  rw [decide_eq_true_iff, List.mem_append, mem_map_key_filter_iff hnodup keep he, not_or]
  constructor
  · rintro ⟨_, hnot⟩
    rw [Bool.not_eq_true', Bool.eq_false_iff]
    exact hnot
  · intro hnot
    rw [Bool.not_eq_true', Bool.eq_false_iff] at hnot
    exact ⟨hnew, hnot⟩

theorem countP_key_eq_one (hnodup : c.keys.Nodup) (hmem : key ∈ c.keys) :
    (c.stored.countP fun e => decide (e.key = key)) = 1 := by
  have hcount := List.count_eq_one_of_mem hnodup hmem
  unfold List.count keys at hcount
  rw [List.countP_map] at hcount
  exact hcount

theorem length_filter_add (c : Cache v) (keep : Entry v -> Bool) :
    (c.stored.filter keep).length + (c.stored.countP fun e => !keep e) = c.size := by
  rw [← List.countP_eq_length_filter]
  have hsplit := List.length_eq_countP_add_countP keep (l := c.stored)
  unfold size
  rw [hsplit]
  congr 2
  funext e
  cases keep e with
  | true => rfl
  | false => rfl

theorem length_without_add_one (hnodup : c.keys.Nodup) (hmem : key ∈ c.keys) :
    (c.without key).length + 1 = c.size := by
  rw [← c.length_filter_add fun e => e.key ≠ key]
  simp only [decide_not, Bool.not_not]
  rw [countP_key_eq_one hnodup hmem]
  unfold without
  simp only [decide_not]

/-!
# What is booked
-/

/-- What an operation contributes to the accounts of a cache. -/
structure Booking where
  /-- New keys that were written. -/
  arrivals : Nat
  /-- Keys that went because a new one came at full capacity. -/
  displaced : Nat
  /-- Keys that were removed on demand. -/
  removed : Nat
  lookups : Nat
deriving DecidableEq, Repr

namespace Booking

def nothing : Booking :=
  { arrivals := 0, displaced := 0, removed := 0, lookups := 0 }

def add (a b : Booking) : Booking :=
  { arrivals := a.arrivals + b.arrivals
    displaced := a.displaced + b.displaced
    removed := a.removed + b.removed
    lookups := a.lookups + b.lookups }

end Booking

/-- What a write contributes that leaves behind the given cache. -/
def arrival (c c' : Cache v) (key : String) : Booking :=
  if key ∈ c.keys then .nothing
  else if c.options.maxSize ≤ c.size then
    { Booking.nothing with arrivals := 1, displaced := c.gone c' }
  else { Booking.nothing with arrivals := 1 }

/-- What one operation contributes; a load is a sequence of operations. -/
def booking (form : Form v) (c : Cache v) (m : Moment v) : Booking :=
  let c' := c.act form m
  match m.operation with
  | .set key _ | .setSized key _ _ => c.arrival c' key
  | .merge e => c.arrival c' e.key
  | .delete _ | .invalidate _ _ | .clear => { Booking.nothing with removed := c.gone c' }
  | .get _ => { Booking.nothing with lookups := 1 }
  | _ => .nothing

/-- All that one operation can do to the entries and the counters, and what is booked for
it. -/
inductive Effect (c : Cache v) : Booking -> Cache v -> Prop where
  | overwritten (e : Entry v) (h : e.key ∈ c.keys) :
      Effect c .nothing { c with stored := e :: c.without e.key }
  | added (e : Entry v) (h : e.key ∉ c.keys) (hroom : c.size < c.options.maxSize) :
      Effect c { Booking.nothing with arrivals := 1 } { c with stored := e :: c.stored }
  | evicted (e : Entry v) (oldest : String) (h : e.key ∉ c.keys) (holdest : oldest ∈ c.keys) :
      Effect c { Booking.nothing with arrivals := 1, displaced := 1 }
        { c with stored := e :: c.without oldest, evictions := c.evictions + 1 }
  | found (e : Entry v) (h : e.key ∈ c.keys) :
      Effect c { Booking.nothing with lookups := 1 }
        { c with stored := e :: c.without e.key, hits := c.hits + 1 }
  | missed :
      Effect c { Booking.nothing with lookups := 1 } { c with misses := c.misses + 1 }
  | expired (key : String) (h : key ∈ c.keys) :
      Effect c { Booking.nothing with lookups := 1 }
        { c with
          stored := c.without key
          expirations := c.expirations + 1
          misses := c.misses + 1 }
  | pruned (keep : Entry v -> Bool) :
      Effect c .nothing
        { c with
          stored := c.stored.filter keep
          expirations := c.expirations + c.stored.countP fun e => !keep e }
  | removed (keep : Entry v -> Bool) :
      Effect c { Booking.nothing with removed := c.stored.countP fun e => !keep e }
        { c with stored := c.stored.filter keep }
  | read : Effect c .nothing c

/-!
# What operations do
-/

theorem effect_merge (h : Kept c) (e : Entry v) :
    Effect c (c.arrival (c.merge e).state e.key) (c.merge e).state := by
  unfold arrival
  split
  next hmem =>
    rw [state_merge_of_mem hmem]
    exact Effect.overwritten e hmem
  next hnot =>
    split
    next hfull =>
      rcases exists_state_merge_of_le h.nodup h.roomy hnot hfull with
        ⟨others, oldest, hstored, hmerge⟩
      have hmem : oldest.key ∈ c.keys :=
        List.mem_map_of_mem (hstored ▸ List.mem_concat_self)
      have hgone : c.gone (c.merge e).state = 1 := by
        have hfresh : forall key, key ∈ [e.key] -> key ∉ c.keys := by
          intro key hkey
          rw [List.mem_singleton.mp hkey]
          exact hnot
        have hkeys : (c.merge e).state.keys =
            [e.key] ++ (c.stored.filter fun e => e.key ≠ oldest.key).map Entry.key := by
          rw [hmerge]
          rfl
        rw [gone_eq_countP h.nodup _ hkeys hfresh]
        simp only [decide_not, Bool.not_not]
        exact countP_key_eq_one h.nodup hmem
      rw [hgone, hmerge]
      exact Effect.evicted e oldest.key hnot hmem
    next hfree =>
      have hroom := Nat.lt_of_not_le hfree
      rw [state_merge_of_lt hnot hroom]
      exact Effect.added e hnot hroom

theorem booking_of_written {m : Moment v} (hm : m.operation.written? = some key) :
    c.booking form m = c.arrival (c.act form m) key := by
  rcases m with ⟨now, operation⟩
  cases operation with
  | set k value => cases hm; rfl
  | setSized k value size => cases hm; rfl
  | merge e => cases hm; rfl
  | _ => cases hm

theorem effect_get (c : Cache v) (now : Int) (key : String) :
    Effect c { Booking.nothing with lookups := 1 } (c.get now key).state := by
  unfold get
  cases hfind : c.find? key with
  | none => exact Effect.missed
  | some e =>
      have hkey := key_eq_of_find?_eq_some hfind
      have hmem := mem_keys_of_find?_eq_some hfind
      simp only
      split
      · exact Effect.expired key hmem
      · subst hkey
        exact Effect.found { e with hits := nextHits e.hits } hmem

theorem effect_filter (h : Kept c) (keep : Entry v -> Bool)
    (hc : c' = { c with stored := c.stored.filter keep }) :
    Effect c { Booking.nothing with removed := c.gone c' } c' := by
  subst hc
  have hnone : forall key, key ∈ ([] : List String) -> key ∉ c.keys := fun _ hkey => nomatch hkey
  rw [gone_eq_countP h.nodup { c with stored := c.stored.filter keep } rfl hnone]
  exact Effect.removed keep

theorem countP_expired (c : Cache v) (now : Int) :
    (c.prune now).result = c.stored.countP fun e => !!isExpired c.options now e := by
  show (c.stored.filter (isExpired c.options now)).length = _
  rw [← List.countP_eq_length_filter]
  simp only [Bool.not_not]

theorem effect_act (h : Kept c) {m : Moment v}
    (hload : forall tree path, m.operation ≠ .load tree path)
    (hreset : m.operation ≠ .resetStats) :
    Effect c (c.booking form m) (c.act form m) := by
  cases hwritten : m.operation.written? with
  | some key =>
      rcases c.exists_merge_eq form hwritten with ⟨e, rfl, hact⟩
      rw [booking_of_written hwritten, hact]
      exact effect_merge h e
  | none =>
      rcases m with ⟨now, operation⟩
      cases operation with
      | set key value => cases hwritten
      | setSized key value size => cases hwritten
      | merge e => cases hwritten
      | load tree path => exact absurd rfl (hload tree path)
      | resetStats => exact absurd rfl hreset
      | get key => exact effect_get c now key
      | delete key => exact effect_filter h _ (fst_delete c key)
      | invalidate key dependents =>
          exact effect_filter h _ (fst_deleteAll c (key :: dependents))
      | clear =>
          have hnone : c.stored.filter (fun _ => false) = [] := by simp
          have hclear : c.clear = { c with stored := c.stored.filter fun _ => false } := by
            rw [hnone]
            rfl
          exact effect_filter h _ hclear
      | prune =>
          show Effect c .nothing { c with
            stored := c.entries now, expirations := c.expirations + (c.prune now).result }
          rw [countP_expired]
          exact Effect.pruned _
      | _ => exact Effect.read

namespace Effect

variable {b : Booking}

theorem options_eq (h : Effect c b c') : c'.options = c.options := by
  cases h with
  | _ => rfl

theorem nodup_cons_without (hnodup : c.keys.Nodup) (e : Entry v) {key : String}
    (hkey : e.key = key ∨ e.key ∉ c.keys) :
    (e.key :: (c.without key).map Entry.key).Nodup := by
  rw [map_key_without, List.nodup_cons, List.mem_filter]
  constructor
  · rintro ⟨hmem, hne⟩
    cases hkey with
    | inl heq => exact of_decide_eq_true hne heq
    | inr hnot => exact hnot hmem
  · exact hnodup.filter _

theorem nodup (h : Effect c b c') (hnodup : c.keys.Nodup) : c'.keys.Nodup := by
  have hfilter : forall keep : Entry v -> Bool,
      ((c.stored.filter keep).map Entry.key).Nodup :=
    fun _ => hnodup.sublist (List.filter_sublist.map Entry.key)
  cases h with
  | overwritten e h => exact nodup_cons_without hnodup e (Or.inl rfl)
  | added e h hroom => exact List.nodup_cons.mpr ⟨h, hnodup⟩
  | evicted e oldest h holdest => exact nodup_cons_without hnodup e (Or.inr h)
  | found e h => exact nodup_cons_without hnodup e (Or.inl rfl)
  | missed => exact hnodup
  | expired key h => exact hfilter _
  | pruned keep => exact hfilter keep
  | removed keep => exact hfilter keep
  | read => exact hnodup

/-- What comes in is either still there or accounted for. -/
theorem conserved (h : Effect c b c') (hnodup : c.keys.Nodup) :
    c.size + c.evictions + c.expirations + b.arrivals =
      c'.size + c'.evictions + c'.expirations + b.removed := by
  cases h with
  | overwritten e h =>
      have hsize := length_without_add_one hnodup h
      show c.size + c.evictions + c.expirations =
        (c.without e.key).length + 1 + c.evictions + c.expirations
      rw [hsize]
  | added e h hroom =>
      show c.size + c.evictions + c.expirations + 1 =
        c.size + 1 + c.evictions + c.expirations
      omega
  | evicted e oldest h holdest =>
      have hsize := length_without_add_one hnodup holdest
      show c.size + c.evictions + c.expirations + 1 =
        (c.without oldest).length + 1 + (c.evictions + 1) + c.expirations
      omega
  | found e h =>
      have hsize := length_without_add_one hnodup h
      show c.size + c.evictions + c.expirations =
        (c.without e.key).length + 1 + c.evictions + c.expirations
      rw [hsize]
  | missed => rfl
  | expired key h =>
      have hsize := length_without_add_one hnodup h
      show c.size + c.evictions + c.expirations =
        (c.without key).length + c.evictions + (c.expirations + 1)
      omega
  | pruned keep =>
      have hsize := c.length_filter_add keep
      show c.size + c.evictions + c.expirations =
        (c.stored.filter keep).length + c.evictions +
          (c.expirations + c.stored.countP fun e => !keep e)
      omega
  | removed keep =>
      have hsize := c.length_filter_add keep
      show c.size + c.evictions + c.expirations =
        (c.stored.filter keep).length + c.evictions + c.expirations +
          c.stored.countP fun e => !keep e
      omega
  | read => rfl

theorem lookups_eq (h : Effect c b c') : c'.hits + c'.misses = c.hits + c.misses + b.lookups := by
  cases h with
  | found e h => exact Nat.add_right_comm _ _ _
  | _ => rfl

theorem evictions_eq (h : Effect c b c') : c'.evictions = c.evictions + b.displaced := by
  cases h with
  | _ => rfl

theorem size_le (h : Effect c b c') (hkept : Kept c) : c'.size ≤ c'.options.maxSize := by
  have hle := hkept.size_le
  have hfilter : forall keep : Entry v -> Bool,
      (c.stored.filter keep).length ≤ c.options.maxSize :=
    fun _ => Nat.le_trans (List.length_filter_le _ _) hle
  have hcons : forall key, key ∈ c.keys ->
      (c.without key).length + 1 ≤ c.options.maxSize := by
    intro key hmem
    rw [length_without_add_one hkept.nodup hmem]
    exact hle
  cases h with
  | overwritten e h => exact hcons e.key h
  | added e h hroom => exact hroom
  | evicted e oldest h holdest => exact hcons oldest holdest
  | found e h => exact hcons e.key h
  | missed => exact hle
  | expired key h => exact hfilter _
  | pruned keep => exact hfilter keep
  | removed keep => exact hfilter keep
  | read => exact hle

theorem kept (h : Effect c b c') (hkept : Kept c) : Kept c' where
  nodup := h.nodup hkept.nodup
  roomy := h.options_eq ▸ hkept.roomy
  size_le := h.size_le hkept

end Effect

/-!
# The ledger
-/

/-- A cache with all that was booked for it. -/
structure Ledger (v : Type) where
  cache : Cache v
  total : Booking

namespace Ledger

def start (options : Options) : Ledger v :=
  { cache := (Cache.new options).state, total := .nothing }

def book (form : Form v) (l : Ledger v) (m : Moment v) : Ledger v :=
  { cache := l.cache.act form m, total := l.total.add (l.cache.booking form m) }

/-- A load books every entry that it writes on its own. -/
def act (form : Form v) (l : Ledger v) (m : Moment v) : Ledger v :=
  match m.operation with
  | .load tree path =>
      (l.cache.liveEntries form m.now tree path).foldl
        (fun l e => l.book form ⟨m.now, .merge e⟩) l
  | _ => l.book form m

def run (form : Form v) (l : Ledger v) (ms : List (Moment v)) : Ledger v :=
  ms.foldl (act form) l

theorem cache_act (form : Form v) (l : Ledger v) (m : Moment v) :
    (l.act form m).cache = l.cache.act form m := by
  rcases m with ⟨now, operation⟩
  cases operation with
  | load tree path =>
      show _ = (l.cache.load form now tree path).state
      rw [state_load]
      exact (List.foldl_hom cache fun _ _ => rfl).symm
  | _ => rfl

theorem cache_run (form : Form v) (l : Ledger v) (ms : List (Moment v)) :
    (l.run form ms).cache = l.cache.run form ms :=
  (List.foldl_hom cache fun l m => (cache_act form l m).symm).symm

/-- The counters say what was booked. -/
structure Balanced (l : Ledger v) : Prop where
  arrivals : l.total.arrivals =
    l.cache.size + l.cache.evictions + l.cache.expirations + l.total.removed
  lookups : l.cache.hits + l.cache.misses = l.total.lookups
  evictions : l.cache.evictions = l.total.displaced

variable {l : Ledger v}

theorem balanced_start (options : Options) : (start options : Ledger v).Balanced := by
  rcases exists_new_eq (v := v) options with ⟨o, _, hnew⟩
  have hcache : (start options : Ledger v).cache = empty o := hnew
  constructor
  case arrivals => rw [hcache]; rfl
  case lookups => rw [hcache]; rfl
  case evictions => rw [hcache]; rfl

theorem Balanced.book (h : l.Balanced) (hkept : Kept l.cache) {m : Moment v}
    (heffect : Effect l.cache (l.cache.booking form m) (l.cache.act form m)) :
    (l.book form m).Balanced := by
  constructor
  case arrivals =>
    have hconserved := heffect.conserved hkept.nodup
    have harrivals := h.arrivals
    show l.total.arrivals + _ = (l.cache.act form m).size + (l.cache.act form m).evictions +
      (l.cache.act form m).expirations + (l.total.removed + _)
    omega
  case lookups =>
    show (l.cache.act form m).hits + (l.cache.act form m).misses = l.total.lookups + _
    rw [heffect.lookups_eq, h.lookups]
  case evictions =>
    show (l.cache.act form m).evictions = l.total.displaced + _
    rw [heffect.evictions_eq, h.evictions]

end Ledger

/-!
# Runs
-/

theorem Kept.foldl_merge (h : Kept c) (entries : List (Entry v)) :
    Kept (entries.foldl (fun c e => (c.merge e).state) c) := by
  induction entries generalizing c with
  | nil => exact h
  | cons e entries ih => exact ih ((effect_merge h e).kept h)

theorem Kept.act (form : Form v) (h : Kept c) (m : Moment v) : Kept (c.act form m) := by
  have hother : (forall tree path, m.operation ≠ .load tree path) ->
      m.operation ≠ .resetStats -> Kept (c.act form m) :=
    fun hload hreset => (effect_act h hload hreset).kept h
  rcases m with ⟨now, operation⟩
  cases operation with
  | load tree path =>
      show Kept (c.load form now tree path).state
      rw [state_load]
      exact h.foldl_merge _
  | resetStats => exact ⟨h.nodup, h.roomy, h.size_le⟩
  | _ => exact hother (fun _ _ hload => nomatch hload) fun hreset => nomatch hreset

theorem Kept.run (form : Form v) (h : Kept c) (ms : List (Moment v)) :
    Kept (c.run form ms) := by
  induction ms generalizing c with
  | nil => exact h
  | cons m ms ih => exact ih (h.act form m)

namespace Ledger

variable {l : Ledger v}

theorem Balanced.foldl_merge (h : l.Balanced) (hkept : Kept l.cache) (now : Int)
    (entries : List (Entry v)) :
    (entries.foldl (fun l e => l.book form ⟨now, .merge e⟩) l).Balanced := by
  induction entries generalizing l with
  | nil => exact h
  | cons e entries ih =>
      have heffect := effect_merge hkept e
      exact ih (h.book hkept heffect) (heffect.kept hkept)

theorem Balanced.act (h : l.Balanced) (hkept : Kept l.cache) {m : Moment v}
    (hreset : m.operation ≠ .resetStats) : (l.act form m).Balanced := by
  have hother : (forall tree path, m.operation ≠ .load tree path) ->
      (l.book form m).Balanced :=
    fun hload => h.book hkept (effect_act hkept hload hreset)
  rcases m with ⟨now, operation⟩
  cases operation with
  | load tree path => exact h.foldl_merge hkept now _
  | _ => exact hother fun _ _ hload => nomatch hload

theorem Balanced.run (h : l.Balanced) (hkept : Kept l.cache) {ms : List (Moment v)}
    (hreset : forall m, m ∈ ms -> m.operation ≠ .resetStats) : (l.run form ms).Balanced := by
  induction ms generalizing l with
  | nil => exact h
  | cons m ms ih =>
      have hkept' : Kept (l.act form m).cache := by
        rw [cache_act]
        exact hkept.act form m
      have hact : (l.act form m).Balanced := h.act hkept (hreset m List.mem_cons_self)
      exact ih hact hkept' fun m' hm => hreset m' (List.mem_cons_of_mem _ hm)

end Ledger
end Cache
end CodeSurvey
