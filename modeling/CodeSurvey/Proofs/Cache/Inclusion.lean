import CodeSurvey.Proofs.Cache.Recency
import CodeSurvey.Proofs.Steps

/-!
# A larger cache holds more

Two caches that differ in their size go through the same operations.  At every point the
smaller one holds a part of the larger one, in the same order of use; the larger one has
at most as many entries more as it has more room.  So it is never worse.
-/

namespace CodeSurvey
namespace Cache

/-!
# Parts of a list
-/

theorem sublist_dropLast {α : Type} {xs ys : List α} (h : xs.Sublist ys) :
    xs.dropLast.Sublist ys.dropLast := by
  apply List.reverse_sublist.mp
  rw [← List.tail_reverse, ← List.tail_reverse]
  exact h.reverse.tail

theorem length_filter_sublist {α : Type} {xs ys : List α} (keep : α -> Bool)
    (h : xs.Sublist ys) :
    (ys.filter keep).length + xs.length ≤ (xs.filter keep).length + ys.length := by
  have hleft := h.countP_le (p := fun x => decide ¬ keep x = true)
  have hxs := List.length_eq_countP_add_countP keep (l := xs)
  have hys := List.length_eq_countP_add_countP keep (l := ys)
  rw [← List.countP_eq_length_filter, ← List.countP_eq_length_filter]
  omega

theorem filter_mem_sublist {xs ys : List String} (h : xs.Sublist ys) (hnodup : ys.Nodup) :
    ys.filter (· ∈ xs) = xs := by
  induction h with
  | slnil => rfl
  | @cons xs ys y hsublist ih =>
      rcases List.nodup_cons.mp hnodup with ⟨hy, hnodup⟩
      have hnot : y ∉ xs := fun hmem => hy (hsublist.subset hmem)
      rw [List.filter_cons_of_neg (by simp [hnot])]
      exact ih hnodup
  | @cons_cons xs ys y hsublist ih =>
      rcases List.nodup_cons.mp hnodup with ⟨hy, hnodup⟩
      have hsame : ys.filter (· ∈ y :: xs) = ys.filter (· ∈ xs) := by
        apply List.filter_congr
        intro x hx
        have hne : x ≠ y := fun heq => hy (heq ▸ hx)
        simp [hne]
      rw [List.filter_cons_of_pos (by simp), hsame, ih hnodup]

/-!
# Entries but for their hits
-/

namespace Entry

/-- What an entry says apart from how often it was found. -/
def face (e : Entry v) : Entry v :=
  { e with hits := 0 }

theorem eq_of_face_eq {e e' : Entry v} (h : e.face = e'.face) :
    e.key = e'.key ∧ e.value = e'.value ∧ e.size = e'.size ∧ e.timestamp = e'.timestamp := by
  rcases Entry.mk.inj h with ⟨hkey, hvalue, hsize, _, htimestamp⟩
  exact ⟨hkey, hvalue, hsize, htimestamp⟩

/-- A test that does not look at the hits. -/
def Blind (test : Entry v -> Bool) : Prop :=
  forall e, test e.face = test e

theorem Blind.eq_of_face_eq {test : Entry v -> Bool} (h : Blind test) {e e' : Entry v}
    (hface : e.face = e'.face) : test e = test e' := by
  rw [← h e, hface, h e']

theorem map_face_filter {test : Entry v -> Bool} (h : Blind test) (es : List (Entry v)) :
    (es.filter test).map face = (es.map face).filter test := by
  have hsame : test ∘ face = test := funext h
  rw [List.filter_map, hsame]

end Entry

/-- `small` is a part of `large`, which has at most `extra` entries more. -/
structure Part (extra : Nat) (small large : List (Entry v)) : Prop where
  sublist : (small.map Entry.face).Sublist (large.map Entry.face)
  length_le : large.length ≤ small.length + extra

namespace Part

variable {extra : Nat} {small large : List (Entry v)}

theorem filter (h : Part extra small large) {keep : Entry v -> Bool}
    (hkeep : Entry.Blind keep) : Part extra (small.filter keep) (large.filter keep) where
  sublist := by
    rw [Entry.map_face_filter hkeep, Entry.map_face_filter hkeep]
    exact h.sublist.filter keep
  length_le := by
    have hlength := length_filter_sublist keep h.sublist
    rw [← Entry.map_face_filter hkeep, ← Entry.map_face_filter hkeep] at hlength
    simp only [List.length_map] at hlength
    have hle := h.length_le
    omega

theorem cons (h : Part extra small large) {e e' : Entry v} (hface : e.face = e'.face) :
    Part extra (e :: small) (e' :: large) where
  sublist := by
    rw [List.map_cons, List.map_cons, hface]
    exact h.sublist.cons_cons _
  length_le := by
    rw [List.length_cons, List.length_cons]
    have hle := h.length_le
    omega

theorem dropLast (h : Part extra small large) : Part extra small.dropLast large.dropLast where
  sublist := by
    rw [List.map_dropLast, List.map_dropLast]
    exact sublist_dropLast h.sublist
  length_le := by
    rw [List.length_dropLast, List.length_dropLast]
    have hle := h.length_le
    omega

theorem shrink (h : Part extra small large) {smaller : List (Entry v)}
    (hsublist : smaller.Sublist small) (hle : large.length ≤ smaller.length + extra) :
    Part extra smaller large where
  sublist := (hsublist.map Entry.face).trans h.sublist
  length_le := hle

theorem cons_whole (h : Part extra small large) (e : Entry v) :
    Part (extra + 1) small (e :: large) where
  sublist := h.sublist.cons _
  length_le := Nat.succ_le_succ h.length_le

theorem keys_sublist (h : Part extra small large) :
    (small.map Entry.key).Sublist (large.map Entry.key) := by
  have hkeys := h.sublist.map Entry.key
  rw [List.map_map, List.map_map] at hkeys
  exact hkeys

theorem exists_face_eq (h : Part extra small large) {e : Entry v} (he : e ∈ small) :
    exists e', e' ∈ large ∧ e'.face = e.face :=
  List.mem_map.mp (h.sublist.subset (List.mem_map_of_mem he))

end Part

/-!
# Making room
-/

def remaining (c : Cache v) : List (Entry v) :=
  if c.options.maxSize ≤ c.size then c.stored.dropLast else c.stored

theorem remaining_sublist (c : Cache v) : c.remaining.Sublist c.stored := by
  unfold remaining
  split
  · exact List.dropLast_sublist _
  · exact List.Sublist.refl _

theorem length_le_remaining (c : Cache v) : c.stored.length ≤ c.remaining.length + 1 := by
  unfold remaining
  split
  · rw [List.length_dropLast]
    omega
  · exact Nat.le_succ _

theorem exists_state_merge {c : Cache v} (hroom : 1 ≤ c.options.maxSize) {e : Entry v}
    (hkey : e.key ∉ c.keys) :
    exists evictions, (c.merge e).state = { c with stored := e :: c.remaining, evictions } := by
  unfold remaining
  split
  next hfull =>
    rcases exists_last hroom hfull with ⟨others, last, hstored⟩
    refine ⟨c.evictions + 1, ?_⟩
    rw [state_merge_of_le hkey hfull hstored, hstored, List.dropLast_concat]
  next hfree => exact ⟨c.evictions, state_merge_of_lt hkey (Nat.lt_of_not_le hfree)⟩

/-!
# Two caches
-/

/-- A cache holds a part of another one, which has the same lifetime and at least as much
room. -/
structure Includes (large small : Cache v) : Prop where
  ttlMs : small.options.ttlMs = large.options.ttlMs
  roomy : 1 ≤ small.options.maxSize
  capacity : small.options.maxSize ≤ large.options.maxSize
  stored : Part (large.options.maxSize - small.options.maxSize) small.stored large.stored
  hits : small.hits ≤ large.hits

theorem blind_isExpired (o : Options) (now : Int) :
    Entry.Blind fun e : Entry v => !isExpired o now e :=
  fun _ => rfl

theorem blind_key (test : String -> Bool) : Entry.Blind fun e : Entry v => test e.key :=
  fun _ => rfl

theorem isExpired_congr {o o' : Options} (h : o.ttlMs = o'.ttlMs) (now : Int) {e e' : Entry v}
    (hface : e.face = e'.face) : isExpired o now e = isExpired o' now e' := by
  have htimestamp := (Entry.eq_of_face_eq hface).2.2.2
  unfold isExpired lifetime
  rw [h, htimestamp]

namespace Includes

variable {small large : Cache v} {now : Int} {key : String}

theorem mem_keys (h : large.Includes small) (hkey : key ∈ small.keys) : key ∈ large.keys :=
  h.stored.keys_sublist.subset hkey

/-!
# Writing
-/

theorem merge_of_mem (h : large.Includes small) {e e' : Entry v} (hface : e.face = e'.face)
    (hmem : e.key ∈ small.keys) : (large.merge e').state.Includes (small.merge e).state := by
  have hkey := (Entry.eq_of_face_eq hface).1
  have hstored := (h.stored.filter (blind_key fun k => k ≠ e.key)).cons hface
  rw [state_merge_of_mem hmem, state_merge_of_mem (hkey ▸ h.mem_keys hmem), ← hkey]
  exact ⟨h.ttlMs, h.roomy, h.capacity, hstored, h.hits⟩

theorem exists_part_without (h : large.Includes small) (hnot : key ∉ small.keys)
    (hmem : key ∈ large.keys) :
    exists extra, large.options.maxSize - small.options.maxSize = extra + 1 ∧
      Part extra small.stored (large.without key) := by
  have hothers := h.stored.filter (blind_key fun k => k ≠ key)
  rw [show small.stored.filter _ = small.stored from without_eq_stored hnot] at hothers
  have hfewer : (large.without key).length + 1 ≤ large.stored.length := by
    rcases List.mem_map.mp hmem with ⟨e, he, hkey⟩
    exact List.length_filter_lt_length_iff_exists.mpr ⟨e, he, by simp [hkey]⟩
  have hpart : small.stored.length ≤ (large.without key).length := by
    have hlength := hothers.sublist.length_le
    simp only [List.length_map] at hlength
    exact hlength
  have hle := h.stored.length_le
  refine ⟨large.options.maxSize - small.options.maxSize - 1, by omega, hothers.sublist, ?_⟩
  show (large.without key).length ≤ _
  omega

/-- The smaller cache may have to give up its last entry for a key that the larger one has
not lost yet. -/
theorem merge_of_mem_large (h : large.Includes small) {e e' : Entry v}
    (hface : e.face = e'.face) (hnot : e.key ∉ small.keys) (hmem : e.key ∈ large.keys) :
    (large.merge e').state.Includes (small.merge e).state := by
  have hkey := (Entry.eq_of_face_eq hface).1
  rcases h.exists_part_without hnot hmem with ⟨extra, hextra, hothers⟩
  have hstored : Part (extra + 1) small.remaining (large.without e.key) := by
    refine ⟨(small.remaining_sublist.map _).trans hothers.sublist, ?_⟩
    have hlength := small.length_le_remaining
    have hle := hothers.length_le
    omega
  rcases exists_state_merge h.roomy hnot with ⟨evictions, hsmall⟩
  rw [hsmall, state_merge_of_mem (hkey ▸ hmem), ← hkey]
  exact ⟨h.ttlMs, h.roomy, h.capacity, hextra ▸ hstored.cons hface, h.hits⟩

/-- When the larger cache has no room for a new key, the smaller one has none either. -/
theorem part_remaining (h : large.Includes small) :
    Part (large.options.maxSize - small.options.maxSize) small.remaining large.remaining := by
  have hle := h.stored.length_le
  have hcapacity := h.capacity
  unfold remaining size
  split
  next hsmall =>
    split
    next => exact h.stored.dropLast
    next hlarge =>
      apply h.stored.shrink (List.dropLast_sublist _)
      rw [List.length_dropLast]
      omega
  next hsmall =>
    split
    next hlarge => exact absurd (Nat.le_trans hlarge hle) (by omega)
    next => exact h.stored

theorem merge (h : large.Includes small) {e e' : Entry v} (hface : e.face = e'.face) :
    (large.merge e').state.Includes (small.merge e).state := by
  have hkey := (Entry.eq_of_face_eq hface).1
  by_cases hsmall : e.key ∈ small.keys
  · exact h.merge_of_mem hface hsmall
  · by_cases hlarge : e.key ∈ large.keys
    · exact h.merge_of_mem_large hface hsmall hlarge
    · have hroomy : 1 ≤ large.options.maxSize := Nat.le_trans h.roomy h.capacity
      rcases exists_state_merge h.roomy hsmall with ⟨evictions, hmerge⟩
      rcases exists_state_merge hroomy (hkey ▸ hlarge) with ⟨evictions', hmerge'⟩
      rw [hmerge, hmerge']
      exact ⟨h.ttlMs, h.roomy, h.capacity, h.part_remaining.cons hface, h.hits⟩

theorem setSized (h : large.Includes small) (now : Int) (key : String) (value : v)
    (size : Nat) :
    (large.setSized now key value size).state.Includes
      (small.setSized now key value size).state := by
  rcases small.exists_hits_setSized now key value size with ⟨hits, hset⟩
  rcases large.exists_hits_setSized now key value size with ⟨hits', hset'⟩
  rw [hset, hset']
  exact h.merge rfl

theorem mergeAll (h : large.Includes small) (entries : List (Entry v)) :
    (entries.foldl (fun c e => (c.merge e).state) large).Includes
      (entries.foldl (fun c e => (c.merge e).state) small) := by
  induction entries generalizing small large with
  | nil => exact h
  | cons e entries ih => exact ih (h.merge rfl)

/-!
# Looking up
-/

theorem find? (h : large.Includes small) (hnodup : large.keys.Nodup) {e : Entry v}
    (hfind : small.find? key = some e) :
    exists e', large.find? key = some e' ∧ e.face = e'.face := by
  rcases h.stored.exists_face_eq (List.mem_of_find?_eq_some hfind) with ⟨e', he', hface⟩
  have hkey := (Entry.eq_of_face_eq hface).1
  have hfound := find?_of_mem hnodup he'
  rw [hkey, key_eq_of_find?_eq_some hfind] at hfound
  exact ⟨e', hfound, hface.symm⟩

theorem get_of_find? (h : large.Includes small) (hnodup : large.keys.Nodup) {e : Entry v}
    (hfind : small.find? key = some e) :
    (large.get now key).state.Includes (small.get now key).state ∧
      (small.get now key).result = (large.get now key).result := by
  rcases h.find? hnodup hfind with ⟨e', hfind', hface⟩
  have hexpired := isExpired_congr h.ttlMs now hface
  have hothers := h.stored.filter (blind_key fun k => k ≠ key)
  unfold get
  rw [hfind, hfind']
  simp only
  rw [hexpired]
  split
  · exact ⟨⟨h.ttlMs, h.roomy, h.capacity, hothers, h.hits⟩, rfl⟩
  · have hvalue := (Entry.eq_of_face_eq hface).2.1
    have hfound : { e with hits := nextHits e.hits }.face =
        { e' with hits := nextHits e'.hits }.face := hface
    have hstored := hothers.cons hfound
    refine ⟨⟨h.ttlMs, h.roomy, h.capacity, hstored, ?_⟩, congrArg some hvalue⟩
    exact Nat.succ_le_succ h.hits

theorem get_of_find?_eq_none (h : large.Includes small) (hfind : small.find? key = none) :
    (large.get now key).state.Includes (small.get now key).state := by
  unfold get
  rw [hfind]
  cases hfind' : large.find? key with
  | none => exact ⟨h.ttlMs, h.roomy, h.capacity, h.stored, h.hits⟩
  | some e' =>
      rcases h.exists_part_without (find?_eq_none_iff.mp hfind)
        (mem_keys_of_find?_eq_some hfind') with ⟨extra, hextra, hothers⟩
      simp only
      split
      · have hstored : Part (extra + 1) small.stored (large.without key) :=
          ⟨hothers.sublist, Nat.le_succ_of_le hothers.length_le⟩
        exact ⟨h.ttlMs, h.roomy, h.capacity, hextra ▸ hstored, h.hits⟩
      · have hstored := hothers.cons_whole { e' with hits := nextHits e'.hits }
        exact ⟨h.ttlMs, h.roomy, h.capacity, hextra ▸ hstored, Nat.le_succ_of_le h.hits⟩

theorem get (h : large.Includes small) (hnodup : large.keys.Nodup) (now : Int) (key : String) :
    (large.get now key).state.Includes (small.get now key).state := by
  cases hfind : small.find? key with
  | none => exact h.get_of_find?_eq_none hfind
  | some e => exact (h.get_of_find? hnodup hfind).1

/-!
# Removing
-/

theorem prune (h : large.Includes small) (now : Int) :
    (large.prune now).state.Includes (small.prune now).state := by
  have hlive := h.stored.filter (blind_isExpired large.options now)
  have hsame : small.entries now = small.stored.filter (!isExpired large.options now ·) := by
    unfold entries
    apply List.filter_congr
    intro e _
    rw [isExpired_congr h.ttlMs now rfl]
  rw [← hsame] at hlive
  exact ⟨h.ttlMs, h.roomy, h.capacity, hlive, h.hits⟩

theorem deleteAll (h : large.Includes small) (keys : List String) :
    (large.deleteAll keys).1.Includes (small.deleteAll keys).1 := by
  have hleft := h.stored.filter (blind_key fun k => k ∉ keys)
  rw [fst_deleteAll, fst_deleteAll]
  exact ⟨h.ttlMs, h.roomy, h.capacity, hleft, h.hits⟩

theorem delete (h : large.Includes small) (key : String) :
    (large.delete key).1.Includes (small.delete key).1 := by
  have hleft := h.stored.filter (blind_key fun k => k ≠ key)
  rw [fst_delete, fst_delete]
  exact ⟨h.ttlMs, h.roomy, h.capacity, hleft, h.hits⟩

end Includes

/-!
# The same files
-/

def Options.content? (o : Options) (tree : Files.Tree) (path : Option String) :
    Option String :=
  (path.or o.persistPath).bind fun path => (tree.readText path).toOption

/-- The same operation at the same time; a load may read another file of the same text. -/
inductive Alike (o o' : Options) : Moment v -> Moment v -> Prop where
  | load (h : o.content? tree path = o'.content? tree' path') :
      Alike o o' ⟨now, .load tree path⟩ ⟨now, .load tree' path'⟩
  | same (m : Moment v) (h : forall tree path, m.operation ≠ .load tree path) :
      Alike o o' m m

theorem Alike.congr {o o' p p' : Options} {m m' : Moment v} (h : Alike o o' m m')
    (hpath : p.persistPath = o.persistPath) (hpath' : p'.persistPath = o'.persistPath) :
    Alike p p' m m' := by
  cases h with
  | load hcontent =>
      apply Alike.load
      unfold Options.content? at *
      rw [hpath, hpath']
      exact hcontent
  | same _ hload => exact Alike.same m hload

theorem toOption_parse (form : Form v) (path path' content : String) :
    (Document.parse form path content).toOption =
      (Document.parse form path' content).toOption := by
  unfold Document.parse
  rw [toOption_bind, toOption_bind]
  congr 1
  funext raw
  cases raw.member? "version" >>= Json.Value.text? with
  | none => rfl
  | some version => rfl

theorem toOption_readDocument (c : Cache v) (form : Form v) (tree : Files.Tree)
    (path : Option String) :
    (c.readDocument form tree path).toOption.map Prod.snd =
      (c.options.content? tree path).bind fun content =>
        (Document.parse form "" content).toOption := by
  unfold readDocument resolvePath Options.content?
  cases path.or c.options.persistPath with
  | none => rfl
  | some path =>
      rw [toOption_bind]
      show (Except.toOption _).map Prod.snd = ((tree.readText path).toOption).bind _
      rw [toOption_bind, toOption_mapError]
      cases (tree.readText path).toOption with
      | none => rfl
      | some content =>
          show (Except.toOption _).map Prod.snd = (Document.parse form "" content).toOption
          rw [toOption_bind, toOption_parse form "" path content]
          cases (Document.parse form path content).toOption with
          | none => rfl
          | some document => rfl

theorem liveEntries_eq (c : Cache v) (form : Form v) (now : Int) (tree : Files.Tree)
    (path : Option String) :
    c.liveEntries form now tree path =
      match (c.options.content? tree path).bind fun content =>
        (Document.parse form "" content).toOption with
      | none => []
      | some document => document.entries.filter fun e => !isExpired c.options now e := by
  rw [← toOption_readDocument]
  unfold liveEntries
  cases c.readDocument form tree path with
  | error e => rfl
  | ok found => rfl

theorem options_foldl_merge (c : Cache v) (entries : List (Entry v)) :
    (entries.foldl (fun c e => (c.merge e).state) c).options = c.options := by
  induction entries generalizing c with
  | nil => rfl
  | cons e entries ih => exact (ih _).trans (c.options_merge e)

theorem options_get (c : Cache v) (now : Int) (key : String) :
    (c.get now key).state.options = c.options := by
  unfold get
  split
  · rfl
  · split <;> rfl

theorem options_act (form : Form v) (c : Cache v) (m : Moment v) :
    (c.act form m).options = c.options := by
  cases hwritten : m.operation.written? with
  | some key =>
      rcases c.exists_merge_eq form hwritten with ⟨e, _, hact⟩
      rw [hact]
      exact c.options_merge e
  | none =>
      rcases m with ⟨now, operation⟩
      cases operation with
      | set key value => cases hwritten
      | setSized key value size => cases hwritten
      | merge e => cases hwritten
      | get key => exact c.options_get now key
      | delete key =>
          show (c.delete key).1.options = c.options
          rw [fst_delete]
      | invalidate key dependents =>
          show (c.deleteAll (key :: dependents)).1.options = c.options
          rw [fst_deleteAll]
      | load tree path =>
          show (c.load form now tree path).state.options = c.options
          rw [state_load]
          exact c.options_foldl_merge _
      | _ => rfl

/-!
# Runs
-/

namespace Includes

variable {small large : Cache v} {form : Form v}

theorem act (h : large.Includes small) (hnodup : large.keys.Nodup) {m m' : Moment v}
    (hm : Alike small.options large.options m m') :
    (large.act form m').Includes (small.act form m) := by
  cases hm with
  | @load tree path tree' path' now hcontent =>
      show (large.load form now tree' path').state.Includes (small.load form now tree path).state
      have hentries : small.liveEntries form now tree path =
          large.liveEntries form now tree' path' := by
        rw [liveEntries_eq, liveEntries_eq, hcontent]
        split
        · rfl
        · apply List.filter_congr
          intro e _
          rw [isExpired_congr h.ttlMs now rfl]
      rw [state_load, state_load, hentries]
      exact h.mergeAll _
  | same m hload =>
      rcases m with ⟨now, operation⟩
      cases operation with
      | set key value => exact h.setSized now key value (form.size value)
      | setSized key value size => exact h.setSized now key value size
      | get key => exact h.get hnodup now key
      | delete key => exact h.delete key
      | invalidate key dependents => exact h.deleteAll (key :: dependents)
      | clear =>
          exact ⟨h.ttlMs, h.roomy, h.capacity, ⟨List.Sublist.refl _, Nat.zero_le _⟩, h.hits⟩
      | prune => exact h.prune now
      | resetStats => exact ⟨h.ttlMs, h.roomy, h.capacity, h.stored, Nat.le_refl 0⟩
      | merge e => exact h.merge rfl
      | load tree path => exact absurd rfl (hload tree path)
      | _ => exact h

theorem run {history : History v} (hsound : history.Sound)
    (h : history.cache.Includes small) {o o' : Options}
    (hpath : small.options.persistPath = o.persistPath)
    (hpath' : history.cache.options.persistPath = o'.persistPath) {ms ms' : List (Moment v)}
    (hms : List.Forall₂ (Alike o o') ms ms') :
    (history.run form ms').cache.Includes (small.run form ms) := by
  induction hms generalizing small history with
  | nil => exact h
  | @cons m m' ms ms' hm _ ih =>
      have hincluded : (history.act form m').cache.Includes (small.act form m) :=
        h.act hsound.ordered.nodup (hm.congr hpath hpath')
      apply ih (hsound.act m') hincluded
      · rw [options_act]
        exact hpath
      · show (history.cache.act form m').options.persistPath = o'.persistPath
        rw [options_act]
        exact hpath'

end Includes

theorem state_new (o : Options) :
    (new o : Log.Outcome (Cache v) Unit).state = empty { o with maxSize := max o.maxSize 1 } := by
  unfold new
  split
  next hzero => rw [hzero]; rfl
  next hne => rw [Nat.max_eq_left (Nat.one_le_iff_ne_zero.mpr hne)]; rfl

/-- Whatever is done with two new caches of the same lifetime at the same times, and whatever
files of the same text they load: what the smaller one holds, the larger one holds too, in
the same order of use; what is found in the smaller one is found in the larger one, which
has at least as many hits. -/
theorem inclusion_run (form : Form v) {o o' : Options} (httl : o.ttlMs = o'.ttlMs)
    (hsize : o.maxSize ≤ o'.maxSize) {ms ms' : List (Moment v)}
    (hms : List.Forall₂ (Alike o o') ms ms') :
    let small : Cache v := (new o).state.run form ms
    let large : Cache v := (new o').state.run form ms'
    (forall key e, small.find? key = some e -> exists e', large.find? key = some e' ∧
        e'.value = e.value ∧ e'.size = e.size ∧ e'.timestamp = e.timestamp) ∧
      small.keys = large.keys.filter (· ∈ small.keys) ∧
      (forall now key value, (small.get now key).result = some value ->
        (large.get now key).result = some value) ∧
      small.hits ≤ large.hits := by
  intro small large
  let history : History v := (History.start o').run form ms'
  have hhistory : history.cache = large := History.cache_run form _ ms'
  have hsound : history.Sound := (History.sound_start o').run ms'
  have hnodup : large.keys.Nodup := hhistory ▸ hsound.ordered.nodup
  have hstart : (new o').state.Includes ((new o).state : Cache v) := by
    rw [state_new, state_new]
    constructor
    case ttlMs => exact httl
    case roomy => exact Nat.le_max_right _ _
    case capacity =>
      show max o.maxSize 1 ≤ max o'.maxSize 1
      omega
    case stored => exact ⟨List.Sublist.refl _, Nat.zero_le _⟩
    case hits => exact Nat.le_refl 0
  have h : large.Includes small := by
    rw [← hhistory]
    apply Includes.run (History.sound_start o') hstart _ _ hms
    · rw [state_new]
      rfl
    · show (new o').state.options.persistPath = o'.persistPath
      rw [state_new]
      rfl
  refine ⟨?_, ?_, ?_, h.hits⟩
  · intro key e hfind
    rcases h.find? hnodup hfind with ⟨e', hfind', hface⟩
    rcases Entry.eq_of_face_eq hface with ⟨_, hvalue, hsize, htimestamp⟩
    exact ⟨e', hfind', hvalue.symm, hsize.symm, htimestamp.symm⟩
  · exact (filter_mem_sublist h.stored.keys_sublist hnodup).symm
  · intro now key value hresult
    cases hfind : small.find? key with
    | none =>
        unfold get at hresult
        rw [hfind] at hresult
        cases hresult
    | some e =>
        rw [← (h.get_of_find? hnodup hfind).2]
        exact hresult

/-- The smaller cache loses a key that the larger one finds, and then both load the same
text from files of their own. -/
theorem inclusion_loaded :
    let o : Options := { maxSize := 0, ttlMs := 50, persistPath := some "a.json" }
    let o' : Options := { maxSize := 2, ttlMs := 50, persistPath := some "b.json" }
    let text := "\x7b\"version\": \"1.0.0\", \"createdAt\": \"\", \"entries\": [\x7b" ++
      "\"key\": \"c\", \"value\": \"3\", \"size\": 3, \"hits\": 0, \"timestamp\": 3\x7d]\x7d"
    let ms : List (Moment String) :=
      [⟨0, .set "a" "1"⟩, ⟨1, .set "b" "2"⟩, ⟨2, .get "a"⟩,
        ⟨3, .load ⟨[(["a.json"], .file text.toUTF8)]⟩ none⟩]
    let ms' : List (Moment String) :=
      [⟨0, .set "a" "1"⟩, ⟨1, .set "b" "2"⟩, ⟨2, .get "a"⟩,
        ⟨3, .load ⟨[(["b.json"], .file text.toUTF8)]⟩ none⟩]
    let small : Cache String := (new o).state.run .text ms
    let large : Cache String := (new o').state.run .text ms'
    small.keys = large.keys.filter (· ∈ small.keys) ∧ small.hits ≤ large.hits ∧
      small.keys = ["c"] ∧ large.keys = ["c", "a"] ∧ small.hits = 0 ∧ large.hits = 1 := by
  intro o o' text ms ms' small large
  have hsame : forall m : Moment String, (forall tree path, m.operation ≠ .load tree path) ->
      Alike o o' m m := fun m h => Alike.same m h
  have hms : List.Forall₂ (Alike o o') ms ms' := by
    refine .cons (hsame _ nofun) (.cons (hsame _ nofun) (.cons (hsame _ nofun) (.cons ?_ .nil)))
    apply Alike.load
    decide +kernel
  have httl : o.ttlMs = o'.ttlMs := rfl
  have hincluded := inclusion_run .text httl (by decide) hms
  exact ⟨hincluded.2.1, hincluded.2.2.2, by decide +kernel⟩

end Cache
end CodeSurvey
