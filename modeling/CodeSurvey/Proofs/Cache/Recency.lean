import CodeSurvey.Proofs.Cache.Operation

/-!
# The least recently used entry

A history keeps, beside the cache, which keys were touched: by being written, by a look-up
that found a value, or by a load.  The order in which the entries are stored is that of
their last touches, so the entry that has to go for a new one is the one that was not
touched for the longest time.
-/

namespace CodeSurvey
namespace Cache

variable {c : Cache v} {form : Form v} {now : Int} {key : String}

/-!
# Touches
-/

/-- The number of the last touch of a key, counting from one; the latest touch comes first
in the list.  It is zero for a key that was never touched. -/
def lastTouch (key : String) : List String -> Nat
  | [] => 0
  | touched :: earlier =>
      if touched = key then earlier.length + 1 else lastTouch key earlier

theorem lastTouch_le_length (key : String) (touches : List String) :
    lastTouch key touches ≤ touches.length := by
  induction touches with
  | nil => exact Nat.le_refl 0
  | cons touched earlier ih =>
      unfold lastTouch
      split
      · exact Nat.le_refl _
      · exact Nat.le_succ_of_le ih

theorem lastTouch_cons_self (key : String) (earlier : List String) :
    lastTouch key (key :: earlier) = earlier.length + 1 :=
  if_pos rfl

theorem lastTouch_cons_of_ne {touched : String} (h : touched ≠ key)
    (earlier : List String) : lastTouch key (touched :: earlier) = lastTouch key earlier :=
  if_neg h

/-- A cache, and what was touched of it, the latest first. -/
structure History (v : Type) where
  cache : Cache v
  touches : List String

namespace History

def start (options : Options) : History v :=
  { cache := (Cache.new options).state, touches := [] }

def act (form : Form v) (h : History v) (m : Moment v) : History v :=
  { cache := h.cache.act form m, touches := h.cache.touched form m ++ h.touches }

def run (form : Form v) (h : History v) (ms : List (Moment v)) : History v :=
  ms.foldl (act form) h

theorem cache_run (form : Form v) (h : History v) (ms : List (Moment v)) :
    (h.run form ms).cache = h.cache.run form ms :=
  (List.foldl_hom cache fun _ _ => rfl).symm

theorem run_merge (form : Form v) (h : History v) (now : Int) (entries : List (Entry v)) :
    h.run form (entries.map fun e => ⟨now, .merge e⟩) =
      { cache := entries.foldl (fun c e => (c.merge e).state) h.cache
        touches := (entries.map Entry.key).reverse ++ h.touches } := by
  induction entries generalizing h with
  | nil => rfl
  | cons e entries ih =>
      rw [List.map_cons, List.map_cons, List.reverse_cons, List.append_assoc]
      exact ih _

/-- A load is a run of its own, in which the entries of the file are written. -/
theorem act_load (form : Form v) (h : History v) (now : Int) (tree : Files.Tree)
    (path : Option String) :
    h.act form ⟨now, .load tree path⟩ =
      h.run form ((h.cache.liveEntries form now tree path).map fun e => ⟨now, .merge e⟩) := by
  rw [run_merge, ← state_load]
  rfl

end History

/-!
# The order of the last touches
-/

/-- The keys are in the order of their last touches, the latest first. -/
structure Ordered (keys touches : List String) : Prop where
  mem_touches : forall key, key ∈ keys -> key ∈ touches
  latest_first : keys.Pairwise fun a b => lastTouch b touches < lastTouch a touches

namespace Ordered

variable {keys rest touches : List String}

theorem nodup (h : Ordered keys touches) : keys.Nodup := by
  apply h.latest_first.imp
  rintro a b hlt rfl
  exact Nat.lt_irrefl _ hlt

theorem sublist (h : Ordered keys touches) (hrest : rest.Sublist keys) :
    Ordered rest touches where
  mem_touches := fun key hkey => h.mem_touches key (hrest.subset hkey)
  latest_first := h.latest_first.sublist hrest

theorem touch (h : Ordered keys touches) (hrest : rest.Sublist keys) (hkey : key ∉ rest) :
    Ordered (key :: rest) (key :: touches) := by
  have hne : forall other, other ∈ rest -> key ≠ other := by
    rintro other hother rfl
    exact hkey hother
  constructor
  case mem_touches =>
    intro other hother
    cases List.mem_cons.mp hother with
    | inl heq => exact heq ▸ List.mem_cons_self
    | inr hmem => exact List.mem_cons_of_mem _ (h.mem_touches other (hrest.subset hmem))
  case latest_first =>
    apply List.pairwise_cons.mpr
    constructor
    · intro other hother
      rw [lastTouch_cons_self, lastTouch_cons_of_ne (hne other hother)]
      exact Nat.lt_succ_of_le (lastTouch_le_length other touches)
    · apply (h.latest_first.sublist hrest).imp_of_mem
      intro a b ha hb hlt
      rw [lastTouch_cons_of_ne (hne a ha), lastTouch_cons_of_ne (hne b hb)]
      exact hlt

theorem lastTouch_lt (h : Ordered (rest ++ [key]) touches) {other : String}
    (hother : other ∈ rest) : lastTouch key touches < lastTouch other touches :=
  (List.pairwise_append.mp h.latest_first).2.2 other hother key (List.mem_singleton.mpr rfl)

end Ordered

/-!
# What operations do to the order
-/

theorem exists_last (hroom : 1 ≤ c.options.maxSize) (hfull : c.options.maxSize ≤ c.size) :
    exists others last, c.stored = others ++ [last] := by
  rcases List.eq_nil_or_concat c.stored with hnil | ⟨others, last, hstored⟩
  · unfold size at hfull
    rw [hnil] at hfull
    exact absurd (Nat.le_trans hroom hfull) (Nat.not_succ_le_zero 0)
  · exact ⟨others, last, hstored.trans List.concat_eq_append⟩

theorem exists_state_merge_of_le (hnodup : c.keys.Nodup) (hroom : 1 ≤ c.options.maxSize)
    {e : Entry v} (hkey : e.key ∉ c.keys) (hfull : c.options.maxSize ≤ c.size) :
    exists others oldest, c.stored = others ++ [oldest] ∧
      (c.merge e).state =
        { c with stored := e :: c.without oldest.key, evictions := c.evictions + 1 } := by
  rcases exists_last hroom hfull with ⟨others, oldest, hstored⟩
  refine ⟨others, oldest, hstored, ?_⟩
  rw [without_of_stored hnodup hstored, List.append_nil]
  exact state_merge_of_le hkey hfull hstored

theorem exists_keys_merge (hroom : 1 ≤ c.options.maxSize) (e : Entry v) :
    exists rest, (c.merge e).state.keys = e.key :: rest ∧ rest.Sublist c.keys ∧
      e.key ∉ rest := by
  by_cases hmem : e.key ∈ c.keys
  · refine ⟨c.keys.filter (· ≠ e.key), ?_, List.filter_sublist, by simp⟩
    rw [state_merge_of_mem hmem]
    exact congrArg _ (c.map_key_without e.key)
  · cases Nat.lt_or_ge c.size c.options.maxSize with
    | inl hlt =>
        refine ⟨c.keys, ?_, List.Sublist.refl _, hmem⟩
        rw [state_merge_of_lt hmem hlt]
        rfl
    | inr hle =>
        rcases exists_last hroom hle with ⟨others, last, hstored⟩
        have hsublist : (others.map Entry.key).Sublist c.keys := by
          unfold keys
          rw [hstored, List.map_append]
          exact List.sublist_append_left _ _
        refine ⟨others.map Entry.key, ?_, hsublist, fun h => hmem (hsublist.subset h)⟩
        rw [state_merge_of_le hmem hle hstored]
        rfl

/-!
# Histories
-/

namespace History

structure Sound (h : History v) : Prop where
  ordered : Ordered h.cache.keys h.touches
  roomy : 1 ≤ h.cache.options.maxSize

variable {h : History v}

theorem sound_start (options : Options) : (start options : History v).Sound := by
  rcases exists_new_eq (v := v) options with ⟨o, hroom, hnew⟩
  have hcache : (start options : History v).cache = empty o := hnew
  constructor
  case ordered =>
    rw [hcache]
    constructor
    · intro key hkey
      cases hkey
    · exact List.Pairwise.nil
  case roomy =>
    rw [hcache]
    exact hroom

theorem Sound.write (h' : h.Sound) {m : Moment v}
    (hm : m.operation.written? = some key) : (h.act form m).Sound := by
  rcases h.cache.exists_merge_eq form hm with ⟨e, rfl, hact⟩
  rcases exists_keys_merge h'.roomy e with ⟨rest, hkeys, hrest, hnot⟩
  constructor
  case ordered =>
    show Ordered (h.cache.act form m).keys (h.cache.touched form m ++ h.touches)
    rw [hact, hkeys, touched_of_written hm]
    exact h'.ordered.touch hrest hnot
  case roomy =>
    show 1 ≤ (h.cache.act form m).options.maxSize
    rw [hact, options_merge]
    exact h'.roomy

theorem Sound.spare (h' : h.Sound) {m : Moment v} (hwritten : m.operation.written? = none)
    (hload : forall tree path, m.operation ≠ .load tree path) : (h.act form m).Sound := by
  have hspares := spares_act form h'.ordered.nodup hwritten hload
  constructor
  case ordered =>
    show Ordered (h.cache.act form m).keys (h.cache.touched form m ++ h.touches)
    rcases hspares.touched with ⟨htouched, hsublist⟩ | ⟨key, htouched, hkeys⟩
    · rw [htouched]
      exact h'.ordered.sublist hsublist
    · rw [htouched, hkeys]
      exact h'.ordered.touch List.filter_sublist (by simp)
  case roomy => exact hspares.options ▸ h'.roomy

theorem Sound.run_merge (h' : h.Sound) (now : Int) (entries : List (Entry v)) :
    (h.run form (entries.map fun e => ⟨now, .merge e⟩)).Sound := by
  induction entries generalizing h with
  | nil => exact h'
  | cons e entries ih => exact ih (h'.write rfl)

theorem Sound.act (h' : h.Sound) (m : Moment v) : (h.act form m).Sound := by
  rcases m with ⟨now, operation⟩
  cases operation with
  | set key value => exact h'.write rfl
  | setSized key value size => exact h'.write rfl
  | merge e => exact h'.write rfl
  | load tree path =>
      rw [act_load]
      exact h'.run_merge now _
  | _ => exact h'.spare rfl fun _ _ hload => nomatch hload

theorem Sound.run (h' : h.Sound) (ms : List (Moment v)) : (h.run form ms).Sound := by
  induction ms generalizing h with
  | nil => exact h'
  | cons m ms ih => exact ih (h'.act m)

/-!
# The least recently used entry
-/

/-- What the order of the entries says, and what the next operation does to it. -/
structure LeastRecentlyUsed (form : Form v) (h : History v) : Prop where
  mem_touches : forall key, key ∈ h.cache.keys -> key ∈ h.touches
  latest_first : h.cache.keys.Pairwise fun a b =>
    lastTouch b h.touches < lastTouch a h.touches
  /-- Where nothing is touched, the keys that stay keep their order. -/
  undisturbed : forall m, h.cache.touched form m = [] ->
    (h.cache.act form m).keys.Sublist h.cache.keys
  listed : forall now,
    (h.cache.entries now).map Entry.key = h.cache.keys.filter (h.cache.has now)
  overwrites : forall m key, m.operation.written? = some key -> key ∈ h.cache.keys ->
    exists e, e.key = key ∧
      h.cache.act form m = { h.cache with stored := e :: h.cache.without key }
  inserts : forall m key, m.operation.written? = some key -> key ∉ h.cache.keys ->
    h.cache.size < h.cache.options.maxSize ->
      exists e, e.key = key ∧ h.cache.act form m = { h.cache with stored := e :: h.cache.stored }
  /-- At full capacity the key with the oldest touch is removed for a new one. -/
  evicts : forall m key, m.operation.written? = some key -> key ∉ h.cache.keys ->
    h.cache.options.maxSize ≤ h.cache.size ->
      exists e oldest, e.key = key ∧ oldest ∈ h.cache.keys ∧
        (forall other, other ∈ h.cache.keys -> other ≠ oldest ->
          lastTouch oldest h.touches < lastTouch other h.touches) ∧
        h.cache.act form m =
          { h.cache with
            stored := e :: h.cache.without oldest
            evictions := h.cache.evictions + 1 }
  spares : forall m, m.operation.written? = none ->
    (forall tree path, m.operation ≠ .load tree path) ->
      Spares form h.cache m (h.cache.act form m)
  /-- A load writes the live entries of its file, one after the other. -/
  loads : forall now tree path, h.act form ⟨now, .load tree path⟩ =
    h.run form ((h.cache.liveEntries form now tree path).map fun e => ⟨now, .merge e⟩)

theorem Sound.undisturbed (h' : h.Sound) {m : Moment v}
    (hm : h.cache.touched form m = []) : (h.cache.act form m).keys.Sublist h.cache.keys := by
  have hspare : m.operation.written? = none ->
      (forall tree path, m.operation ≠ .load tree path) ->
        (h.cache.act form m).keys.Sublist h.cache.keys := by
    intro hwritten hload
    have hspares := spares_act form h'.ordered.nodup hwritten hload
    rcases hspares.touched with ⟨_, hsublist⟩ | ⟨key, htouched, _⟩
    · exact hsublist
    · rw [hm] at htouched
      cases htouched
  rcases m with ⟨now, operation⟩
  cases operation with
  | set key value => cases hm
  | setSized key value size => cases hm
  | merge e => cases hm
  | load tree path =>
      have hnone : h.cache.liveEntries form now tree path = [] :=
        List.map_eq_nil_iff.mp (List.reverse_eq_nil_iff.mp hm)
      show (h.cache.load form now tree path).state.keys.Sublist h.cache.keys
      rw [state_load, hnone]
      exact List.Sublist.refl _
  | _ => exact hspare rfl fun _ _ hload => nomatch hload

theorem Sound.listed (h' : h.Sound) (now : Int) :
    (h.cache.entries now).map Entry.key = h.cache.keys.filter (h.cache.has now) := by
  unfold entries keys
  rw [List.filter_map]
  apply congrArg (List.map Entry.key)
  apply List.filter_congr
  intro e he
  exact (has_of_mem h'.ordered.nodup he).symm

theorem Sound.evicts (h' : h.Sound) {e : Entry v} (hkey : e.key ∉ h.cache.keys)
    (hfull : h.cache.options.maxSize ≤ h.cache.size) :
    exists oldest, oldest ∈ h.cache.keys ∧
      (forall other, other ∈ h.cache.keys -> other ≠ oldest ->
        lastTouch oldest h.touches < lastTouch other h.touches) ∧
      (h.cache.merge e).state =
        { h.cache with
          stored := e :: h.cache.without oldest
          evictions := h.cache.evictions + 1 } := by
  have hordered := h'.ordered
  rcases exists_state_merge_of_le hordered.nodup h'.roomy hkey hfull with
    ⟨others, oldest, hstored, hmerge⟩
  have hkeys : h.cache.keys = others.map Entry.key ++ [oldest.key] := by
    unfold keys
    rw [hstored, List.map_append]
    rfl
  rw [hkeys] at hordered
  refine ⟨oldest.key, ?_, ?_, hmerge⟩
  · rw [hkeys]
    exact List.mem_append_right _ (List.mem_singleton.mpr rfl)
  · intro other hother hne
    rw [hkeys] at hother
    cases List.mem_append.mp hother with
    | inl hmem => exact hordered.lastTouch_lt hmem
    | inr hmem => exact absurd (List.mem_singleton.mp hmem) hne

theorem Sound.leastRecentlyUsed (h' : h.Sound) : h.LeastRecentlyUsed form where
  mem_touches := h'.ordered.mem_touches
  latest_first := h'.ordered.latest_first
  undisturbed := fun _ hm => h'.undisturbed hm
  listed := h'.listed
  overwrites := by
    intro m key hm hmem
    rcases h.cache.exists_merge_eq form hm with ⟨e, rfl, hact⟩
    exact ⟨e, rfl, hact.trans (state_merge_of_mem hmem)⟩
  inserts := by
    intro m key hm hnot hlt
    rcases h.cache.exists_merge_eq form hm with ⟨e, rfl, hact⟩
    exact ⟨e, rfl, hact.trans (state_merge_of_lt hnot hlt)⟩
  evicts := by
    intro m key hm hnot hfull
    rcases h.cache.exists_merge_eq form hm with ⟨e, rfl, hact⟩
    rcases h'.evicts hnot hfull with ⟨oldest, hmem, holdest, hmerge⟩
    exact ⟨e, oldest, rfl, hmem, holdest, hact.trans hmerge⟩
  spares := fun _ hwritten hload => spares_act form h'.ordered.nodup hwritten hload
  loads := fun now tree path => act_load form h now tree path

/-- Whatever is done with a new cache, and whatever the clock shows and the files hold. -/
theorem leastRecentlyUsed_run (form : Form v) (options : Options) (ms : List (Moment v)) :
    let h := (start options).run form ms
    h.cache = (Cache.new options).state.run form ms ∧ h.LeastRecentlyUsed form :=
  ⟨cache_run form _ ms, ((sound_start options).run ms).leastRecentlyUsed⟩

/-- With room for two keys, the one that was looked up stays. -/
example :
    ((start { Options.default with maxSize := 2 } : History String).run .text
      [⟨0, .set "a" "1"⟩, ⟨0, .set "b" "2"⟩, ⟨1, .get "a"⟩, ⟨1, .has "b"⟩,
        ⟨2, .set "c" "3"⟩]).cache.keys = ["c", "a"] := by
  decide +kernel

end History
end Cache
end CodeSurvey
