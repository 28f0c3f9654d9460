import CodeSurvey.Proofs.Cache.Inclusion
import CodeSurvey.Proofs.Cache.Restoring
import CodeSurvey.Proofs.Files.Writing
import Mathlib.Data.List.Induction

/-!
# Loading what was persisted

A cache that is persisted and loaded into an empty one comes back with its live entries in
their order of use.  When there is less room, the most recently used ones stay.
-/

namespace CodeSurvey
namespace Cache

variable {c d : Cache v} {form : Form v} {now : Int}

/-!
# Entries that are written one after the other
-/

theorem take_reverse_concat {α : Type} (xs : List α) (x : α) {room : Nat} (hroom : 1 ≤ room) :
    (xs ++ [x]).reverse.take room = x :: xs.reverse.take (room - 1) := by
  rw [List.reverse_concat, List.take_cons hroom]

/-- An empty cache after some new entries were written into it: the last ones stay. -/
def filled (o : Options) (entries : List (Entry v)) : Cache v :=
  { options := o
    stored := entries.reverse.take o.maxSize
    hits := 0
    misses := 0
    evictions := entries.length - o.maxSize
    expirations := 0 }

theorem size_filled (o : Options) (entries : List (Entry v)) :
    (filled o entries).size = min o.maxSize entries.length := by
  unfold size filled
  rw [List.length_take, List.length_reverse]

theorem merge_filled {o : Options} (hroom : 1 ≤ o.maxSize) {entries : List (Entry v)}
    {e : Entry v} (hkey : e.key ∉ entries.map Entry.key) :
    ((filled o entries).merge e).state = filled o (entries ++ [e]) := by
  have hnew : e.key ∉ (filled o entries).keys := by
    intro hmem
    rcases List.mem_map.mp hmem with ⟨e', he', heq⟩
    have hmem' := List.mem_reverse.mp (List.mem_of_mem_take he')
    exact hkey (List.mem_map.mpr ⟨e', hmem', heq⟩)
  have hlength : (entries ++ [e]).length = entries.length + 1 := List.length_append
  -- While there is room nothing is taken away, so one entry less is taken to the same end.
  cases Nat.lt_or_ge entries.length o.maxSize with
  | inl hfree =>
      have hsize : (filled o entries).size < (filled o entries).options.maxSize := by
        rw [size_filled]
        exact Nat.lt_of_le_of_lt (Nat.min_le_right _ _) hfree
      have hall : entries.reverse.take o.maxSize = entries.reverse.take (o.maxSize - 1) := by
        rw [List.take_of_length_le, List.take_of_length_le]
        all_goals rw [List.length_reverse]; omega
      have hevictions : entries.length - o.maxSize = entries.length + 1 - o.maxSize := by omega
      rw [state_merge_of_lt hnew hsize]
      unfold filled
      rw [take_reverse_concat _ _ hroom, hlength, ← hall, ← hevictions]
  | inr hfull =>
      have hsize : (filled o entries).options.maxSize ≤ (filled o entries).size := by
        rw [size_filled, Nat.min_eq_left hfull]
        exact Nat.le_refl o.maxSize
      rcases exists_last hroom hsize with ⟨others, last, hstored⟩
      have hothers : others = entries.reverse.take (o.maxSize - 1) := by
        have hdrop := congrArg List.dropLast hstored
        rw [List.dropLast_concat] at hdrop
        rw [← hdrop]
        show (entries.reverse.take o.maxSize).dropLast = _
        rw [List.dropLast_eq_take, List.take_take, List.length_take, List.length_reverse]
        congr 1
        omega
      have hevictions : entries.length - o.maxSize + 1 = entries.length + 1 - o.maxSize := by omega
      rw [state_merge_of_le hnew hsize hstored, hothers]
      unfold filled
      rw [take_reverse_concat _ _ hroom, hlength, ← hevictions]

theorem foldl_merge_empty {o : Options} (hroom : 1 ≤ o.maxSize) {entries : List (Entry v)}
    (hnodup : (entries.map Entry.key).Nodup) :
    entries.foldl (fun c e => (c.merge e).state) (empty o) = filled o entries := by
  induction entries using List.reverseRecOn with
  | nil => simp [filled, empty]
  | append_singleton entries e ih =>
      rw [List.map_append, List.map_cons, List.map_nil] at hnodup
      have hkey : e.key ∉ entries.map Entry.key := by
        intro hmem
        exact List.disjoint_of_nodup_append hnodup hmem List.mem_cons_self
      rw [List.foldl_append, ih hnodup.of_append_left, List.foldl_cons, List.foldl_nil,
        merge_filled hroom hkey]

/-!
# The document
-/

theorem exists_of_persist {tree : Files.Tree} {path : Option String}
    (h : (c.persist form now tree path).result = .ok ()) :
    exists file, c.resolvePath path = .ok file ∧
      tree.writeBelow file ((c.document now).text form).toUTF8 =
        ((c.persist form now tree path).state, none) := by
  unfold persist at *
  cases hpath : c.resolvePath path with
  | error e =>
      rw [hpath] at h
      cases h
  | ok file =>
      refine ⟨file, rfl, ?_⟩
      simp only [hpath] at h ⊢
      split
      next heq =>
        rw [heq] at h
        cases h
      next heq => exact heq

theorem inFile_persist {tree : Files.Tree} {path : Option String}
    (hpersist : (c.persist form now tree path).result = .ok ()) :
    exists file, c.resolvePath path = .ok file ∧
      (c.document now).InFile form (c.persist form now tree path).state file := by
  rcases exists_of_persist hpersist with ⟨file, hfile, hwrite⟩
  have hread := Files.Tree.readText_of_writeBelow hwrite
  exact ⟨file, hfile, Document.inFile_of_readText rfl hread⟩

theorem readDocument_persist {tree : Files.Tree} {path path' : Option String} (hfits : c.Fits)
    (hrestores : forall e, e ∈ c.entries now -> form.Restores e.value)
    (hpersist : (c.persist form now tree path).result = .ok ())
    (hpath : d.resolvePath path' = c.resolvePath path) :
    exists file, d.readDocument form (c.persist form now tree path).state path' =
      .ok (file, c.document now) := by
  rcases inFile_persist hpersist with ⟨file, hfile, hdocument⟩
  have hsound : forall e, e ∈ (c.document now).entries -> e.Fits ∧ form.Restores e.value := by
    intro e he
    have hlive := List.mem_reverse.mp he
    exact ⟨hfits e (List.mem_of_mem_filter hlive), hrestores e hlive⟩
  rcases hdocument.reads hsound with ⟨content, hread, hparse⟩
  refine ⟨file, bind_eq_ok_iff.mpr ⟨file, hpath.trans hfile, ?_⟩⟩
  apply bind_eq_ok_iff.mpr
  refine ⟨_, mapError_eq_ok_iff.mpr hread, ?_⟩
  exact bind_eq_ok_iff.mpr ⟨_, hparse, rfl⟩

/-!
# The loaded cache
-/

theorem load_persist {o : Options} (hroom : 1 ≤ o.maxSize) (httl : o.ttlMs = c.options.ttlMs)
    {tree : Files.Tree} {path path' : Option String} (hfits : c.Fits) (hnodup : c.keys.Nodup)
    (hrestores : forall e, e ∈ c.entries now -> form.Restores e.value)
    (hpersist : (c.persist form now tree path).result = .ok ())
    (hpath : (empty o : Cache v).resolvePath path' = c.resolvePath path) :
    let loaded := (empty o).load form now (c.persist form now tree path).state path'
    loaded.result = .ok (c.entries now).length ∧
      loaded.state = filled o (c.entries now).reverse := by
  intro loaded
  rcases readDocument_persist hfits hrestores hpersist hpath with ⟨file, hdocument⟩
  have hlive : (empty o).liveEntries form now (c.persist form now tree path).state path' =
      (c.entries now).reverse := by
    unfold liveEntries
    rw [hdocument]
    apply List.filter_eq_self.mpr
    intro e he
    show (!isExpired o now e) = true
    rw [isExpired_congr httl now rfl]
    exact (List.mem_filter.mp (List.mem_reverse.mp he)).2
  have hkeys : ((c.entries now).reverse.map Entry.key).Nodup := by
    rw [List.map_reverse]
    apply List.nodup_reverse.mpr
    exact hnodup.sublist (List.filter_sublist.map Entry.key)
  have hlength : ((c.entries now).reverse).length = (c.entries now).length :=
    List.length_reverse
  constructor
  case left =>
    show ((empty o).load form now (c.persist form now tree path).state path').result = _
    rw [result_load hdocument, hlive, hlength]
  case right =>
    show ((empty o).load form now (c.persist form now tree path).state path').state = _
    rw [state_load, hlive, foldl_merge_empty hroom hkeys]

theorem entries_filled {o : Options} (httl : o.ttlMs = c.options.ttlMs) :
    (filled o (c.entries now).reverse).entries now = (c.entries now).take o.maxSize := by
  have hstored : (filled o (c.entries now).reverse).stored = (c.entries now).take o.maxSize := by
    show ((c.entries now).reverse.reverse).take o.maxSize = _
    rw [List.reverse_reverse]
  show (filled o (c.entries now).reverse).stored.filter (fun e => !isExpired o now e) = _
  rw [hstored]
  apply List.filter_eq_self.mpr
  intro e he
  rw [isExpired_congr httl now rfl]
  exact (List.mem_filter.mp (List.mem_of_mem_take he)).2

/-!
# Runs
-/

theorem options_run (form : Form v) (c : Cache v) (ms : List (Moment v)) :
    (c.run form ms).options = c.options := by
  induction ms generalizing c with
  | nil => rfl
  | cons m ms ih => exact (ih _).trans (options_act form c m)

theorem nodup_keys_run (form : Form v) (o : Options) (ms : List (Moment v)) :
    (((new o).state : Cache v).run form ms).keys.Nodup := by
  have hsound : ((History.start o : History v).run form ms).Sound :=
    (History.sound_start o).run ms
  have hnodup := hsound.ordered.nodup
  rw [History.cache_run] at hnodup
  exact hnodup

/-- What is live comes back in its order when it is loaded at the time of writing, as far as
there is room for it, from the most to the least recently used.  Both are about files below
the working directory, the only ones of which a tree knows. -/
theorem load_persist_run (form : Form v) {o o' : Options} (httl : o'.ttlMs = o.ttlMs)
    {ms : List (Moment v)} (hms : forall m, m ∈ ms -> m.Fits form) (now : Int)
    (tree : Files.Tree) (path path' : Option String) :
    let c : Cache v := (new o).state.run form ms
    let d : Cache v := (new o').state
    (forall e, e ∈ c.entries now -> form.Restores e.value) ->
    (c.persist form now tree path).result = .ok () ->
    d.resolvePath path' = c.resolvePath path ->
    let n := (c.entries now).length
    let loaded := d.load form now (c.persist form now tree path).state path'
    loaded.result = .ok n ∧
      loaded.state.entries now = (c.entries now).take (min n (max o'.maxSize 1)) ∧
      loaded.state.evictions = n - (loaded.state.entries now).length ∧
      loaded.state.hits = 0 ∧ loaded.state.misses = 0 ∧ loaded.state.expirations = 0 := by
  intro c d hrestores hpersist hpath n loaded
  have hnew : d = empty { o' with maxSize := max o'.maxSize 1 } := state_new o'
  have hsame : o'.ttlMs = c.options.ttlMs := by
    rw [options_run, state_new]
    exact httl
  have hroom : 1 ≤ ({ o' with maxSize := max o'.maxSize 1 } : Options).maxSize :=
    Nat.le_max_right _ _
  rcases load_persist hroom hsame ((fits_new o).run hms) (nodup_keys_run form o ms) hrestores
    hpersist (hnew ▸ hpath) with ⟨hresult, hstate⟩
  rw [← hnew] at hresult hstate
  have hentries : loaded.state.entries now = (c.entries now).take (max o'.maxSize 1) := by
    rw [hstate]
    exact entries_filled hsame
  have hlength : (loaded.state.entries now).length = min (max o'.maxSize 1) n := by
    rw [hentries, List.length_take]
  refine ⟨hresult, ?_, ?_, ?_⟩
  · rw [hentries, List.take_eq_take_iff]
    show min (max o'.maxSize 1) n = min (min n (max o'.maxSize 1)) n
    omega
  · rw [hlength, hstate]
    show (c.entries now).reverse.length - max o'.maxSize 1 = n - min (max o'.maxSize 1) n
    rw [List.length_reverse]
    omega
  · rw [hstate]
    exact ⟨rfl, rfl, rfl⟩

/-- One of three entries has expired, and there is only room for one of the others. -/
theorem load_persist_text :
    let o : Options := { maxSize := 3, ttlMs := 50, persistPath := none }
    let o' : Options := { maxSize := 0, ttlMs := 50, persistPath := some "cache.json" }
    let ms : List (Moment String) :=
      [⟨0, .set "a" "1"⟩, ⟨10, .set "b" "2"⟩, ⟨20, .setSized "c" "3" 9⟩, ⟨30, .get "b"⟩,
        ⟨40, .get "c"⟩, ⟨50, .get "a"⟩]
    let c : Cache String := (new o).state.run .text ms
    let persisted := c.persist .text 55 .empty (some "cache.json")
    let loaded := (new o').state.load .text 55 persisted.state none
    c.keys = ["a", "c", "b"] ∧ loaded.result = .ok 2 ∧
      loaded.state.entries 55 =
        [{ key := "c", value := "3", size := 9, hits := 1, timestamp := 20 }] ∧
      loaded.state.evictions = 1 := by
  intro o o' ms
  have hms : forall m, m ∈ ms -> m.Fits .text := by decide +kernel
  have httl : o'.ttlMs = o.ttlMs := rfl
  have hrestores : forall e, e ∈ (((new o).state : Cache String).run .text ms).entries 55 ->
      Form.text.Restores e.value := fun e _ => Form.restores_text e.value
  have hpersist : ((((new o).state : Cache String).run .text ms).persist .text 55 .empty
      (some "cache.json")).result = .ok () := by decide +kernel
  have hpath : ((new o').state : Cache String).resolvePath none =
      (((new o).state : Cache String).run .text ms).resolvePath (some "cache.json") := by
    decide +kernel
  rcases load_persist_run .text httl hms 55 .empty (some "cache.json") none hrestores hpersist
    hpath with ⟨hresult, hentries, hevictions, _⟩
  -- What is loaded follows from what was live; the file itself is not read here.
  have hlive : (((new o).state : Cache String).run .text ms).entries 55 =
      [{ key := "c", value := "3", size := 9, hits := 1, timestamp := 20 },
        { key := "b", value := "2", size := 3, hits := 1, timestamp := 10 }] := by
    decide +kernel
  rw [hlive] at hresult hentries hevictions
  rw [hentries] at hevictions
  exact ⟨by decide +kernel, hresult, hentries, hevictions⟩

end Cache
end CodeSurvey
