import CodeSurvey.Proofs.Cache.Operation
import CodeSurvey.Proofs.Record.Reading

/-!
# Counts and times are words

Sizes, hits and times that come from the caller and the clock are machine words.  Then all
that a cache holds are words too: what is read from a file is checked there.
-/

namespace CodeSurvey
namespace Cache

open Record.Fields (assemble_eq_ok_iff exists_assemble_of_read)

/-!
# Entries of words
-/

/-- All counts and times are words. -/
structure Entry.Fits (e : Entry v) : Prop where
  size : e.size < countLimit
  hits : e.hits < countLimit
  low : -timeLimit ≤ e.timestamp
  high : e.timestamp < timeLimit

instance (e : Entry v) : Decidable e.Fits :=
  decidable_of_iff
    (e.size < countLimit ∧ e.hits < countLimit ∧ -timeLimit ≤ e.timestamp ∧
      e.timestamp < timeLimit)
    ⟨fun ⟨hsize, hhits, hlow, hhigh⟩ => ⟨hsize, hhits, hlow, hhigh⟩,
      fun ⟨hsize, hhits, hlow, hhigh⟩ => ⟨hsize, hhits, hlow, hhigh⟩⟩

variable {form : Form v} {c : Cache v}

theorem Entry.fits_of_decode {o : Json.Outline} {e : Entry v}
    (h : Entry.decode form o = .ok e) : e.Fits := by
  rcases exists_assemble_of_read h with ⟨found, hall⟩
  rcases assemble_eq_ok_iff.mp hall with ⟨f, _, i, hfour, _, htimestamp, rfl⟩
  rcases assemble_eq_ok_iff.mp hfour with ⟨f, _, hits, hthree, _, hhits, rfl⟩
  rcases assemble_eq_ok_iff.mp hthree with ⟨f, _, size, htwo, _, hsize, rfl⟩
  rcases assemble_eq_ok_iff.mp htwo with ⟨f, _, value, hone, _, _, rfl⟩
  rcases assemble_eq_ok_iff.mp hone with ⟨f, _, key, hnone, _, _, rfl⟩
  cases hnone
  rcases Json.Reader.bounds_of_integer htimestamp with ⟨hlow, hhigh⟩
  exact ⟨Record.Reader.lt_of_below hsize, Record.Reader.lt_of_below hhits, hlow, hhigh⟩

theorem Document.fits_of_decode {o : Json.Outline} {d : Document v}
    (h : Document.decode form o = .ok d) {e : Entry v} (he : e ∈ d.entries) : e.Fits := by
  rcases exists_assemble_of_read h with ⟨found, hall⟩
  rcases assemble_eq_ok_iff.mp hall with ⟨f, _, entries, htwo, _, hentries, rfl⟩
  rcases assemble_eq_ok_iff.mp htwo with ⟨f, _, createdAt, hone, _, _, rfl⟩
  rcases assemble_eq_ok_iff.mp hone with ⟨f, _, version, hnone, _, _, rfl⟩
  cases hnone
  rcases Json.Reader.exists_of_list hentries he with ⟨o, ho⟩
  exact Entry.fits_of_decode ho

theorem Document.fits_of_parse {path content : String} {d : Document v}
    (h : Document.parse form path content = .ok d) {e : Entry v} (he : e ∈ d.entries) :
    e.Fits := by
  rcases bind_eq_ok_iff.mp h with ⟨raw, _, h⟩
  split at h
  next => cases h
  next =>
    split at h
    next => exact fits_of_decode (mapError_eq_ok_iff.mp (mapError_eq_ok_iff.mp h)) he
    next => cases h

theorem fits_of_readDocument {tree : Files.Tree} {path : Option String}
    {found : String × Document v} (h : c.readDocument form tree path = .ok found) {e : Entry v}
    (he : e ∈ found.2.entries) : e.Fits := by
  rcases bind_eq_ok_iff.mp h with ⟨file, _, h⟩
  rcases bind_eq_ok_iff.mp h with ⟨content, _, h⟩
  rcases bind_eq_ok_iff.mp h with ⟨d, hparse, h⟩
  cases h
  exact Document.fits_of_parse hparse he

theorem fits_of_mem_liveEntries {now : Int} {tree : Files.Tree} {path : Option String}
    {e : Entry v} (he : e ∈ c.liveEntries form now tree path) : e.Fits := by
  unfold liveEntries at he
  cases hdocument : c.readDocument form tree path with
  | error e' =>
      rw [hdocument] at he
      cases he
  | ok found =>
      rw [hdocument] at he
      exact fits_of_readDocument hdocument (List.mem_of_mem_filter he)

/-!
# Operations on words
-/

def Fits (c : Cache v) : Prop :=
  forall e, e ∈ c.stored -> e.Fits

def Operation.Fits (form : Form v) : Operation v -> Prop
  | .set _ value => form.size value < countLimit
  | .setSized _ _ size => size < countLimit
  | .merge e => e.Fits
  | _ => True

structure Moment.Fits (form : Form v) (m : Moment v) : Prop where
  low : -timeLimit ≤ m.now
  high : m.now < timeLimit
  operation : m.operation.Fits form

instance (form : Form v) : DecidablePred (Operation.Fits form)
  | .set _ value => inferInstanceAs (Decidable (form.size value < countLimit))
  | .setSized _ _ size => inferInstanceAs (Decidable (size < countLimit))
  | .merge e => inferInstanceAs (Decidable e.Fits)
  | .get _ | .has _ | .delete _ | .invalidate _ _ | .clear | .prune | .entries | .stats
  | .resetStats | .persist _ _ | .load _ _ => inferInstanceAs (Decidable True)

instance (form : Form v) (m : Moment v) : Decidable (m.Fits form) :=
  decidable_of_iff (-timeLimit ≤ m.now ∧ m.now < timeLimit ∧ m.operation.Fits form)
    ⟨fun ⟨hlow, hhigh, hoperation⟩ => ⟨hlow, hhigh, hoperation⟩,
      fun ⟨hlow, hhigh, hoperation⟩ => ⟨hlow, hhigh, hoperation⟩⟩

theorem mem_stored_merge {e e' : Entry v} (h : e' ∈ (c.merge e).state.stored) :
    e' = e ∨ e' ∈ c.stored := by
  by_cases hmem : e.key ∈ c.keys
  · rw [state_merge_of_mem hmem] at h
    exact (List.mem_cons.mp h).imp_right List.mem_of_mem_filter
  · rw [merge_of_not_mem hmem] at h
    unfold insertNew at h
    split at h
    next =>
      split at h
      next => exact (List.mem_cons.mp h).imp_right fun hmem =>
        (List.dropLast_sublist _).subset hmem
      next => exact List.mem_cons.mp h
    next => exact Or.inl (List.mem_singleton.mp h)

theorem Fits.merge (h : c.Fits) {e : Entry v} (he : e.Fits) : (c.merge e).state.Fits := by
  intro e' he'
  cases mem_stored_merge he' with
  | inl heq => exact heq ▸ he
  | inr hmem => exact h e' hmem

theorem Fits.foldl_merge (h : c.Fits) {entries : List (Entry v)}
    (hentries : forall e, e ∈ entries -> e.Fits) :
    (entries.foldl (fun c e => (c.merge e).state) c).Fits := by
  induction entries generalizing c with
  | nil => exact h
  | cons e entries ih =>
      exact ih (h.merge (hentries e List.mem_cons_self)) fun e' he' =>
        hentries e' (List.mem_cons_of_mem _ he')

theorem Fits.setSized (h : c.Fits) {now : Int} (hlow : -timeLimit ≤ now) (hhigh : now < timeLimit)
    {size : Nat} (hsize : size < countLimit) (key : String) (value : v) :
    (c.setSized now key value size).state.Fits := by
  have hzero : 0 < countLimit := by decide
  unfold Cache.setSized
  split
  next old hfind =>
    have hold := h old (List.mem_of_find?_eq_some hfind)
    intro e he
    cases List.mem_cons.mp he with
    | inl heq => exact heq ▸ ⟨hsize, hold.hits, hlow, hhigh⟩
    | inr hmem => exact h e (List.mem_of_mem_filter hmem)
  next hnone =>
    let e : Entry v := { key, value, size, hits := 0, timestamp := now }
    have he : e.Fits := ⟨hsize, hzero, hlow, hhigh⟩
    have hnew : c.merge e = c.insertNew e := merge_of_not_mem (find?_eq_none_iff.mp hnone)
    exact hnew ▸ h.merge he

theorem Fits.of_subset (h : c.Fits) {c' : Cache v} (hsubset : c'.stored ⊆ c.stored) : c'.Fits :=
  fun e he => h e (hsubset he)

theorem Fits.get (h : c.Fits) (now : Int) (key : String) : (c.get now key).state.Fits := by
  unfold Cache.get
  split
  next => exact h
  next old hfind =>
    have hold := h old (List.mem_of_find?_eq_some hfind)
    split
    next => exact h.of_subset (List.filter_subset_self _)
    next =>
      have hhits : nextHits old.hits < countLimit := Nat.mod_lt _ (by decide)
      intro e he
      cases List.mem_cons.mp he with
      | inl heq => exact heq ▸ ⟨hold.size, hhits, hold.low, hold.high⟩
      | inr hmem => exact h e (List.mem_of_mem_filter hmem)

theorem Fits.act (h : c.Fits) {m : Moment v} (hm : m.Fits form) : (c.act form m).Fits := by
  rcases m with ⟨now, operation⟩
  rcases hm with ⟨hlow, hhigh, hwords⟩
  cases operation with
  | set key value => exact h.setSized hlow hhigh hwords key value
  | setSized key value size => exact h.setSized hlow hhigh hwords key value
  | get key => exact h.get now key
  | delete key =>
      show (c.delete key).1.Fits
      rw [fst_delete]
      exact h.of_subset (List.filter_subset_self _)
  | invalidate key dependents =>
      show (c.deleteAll (key :: dependents)).1.Fits
      rw [fst_deleteAll]
      exact h.of_subset (List.filter_subset_self _)
  | clear => exact h.of_subset (List.nil_subset _)
  | prune => exact h.of_subset (List.filter_subset_self _)
  | load tree path =>
      show (c.load form now tree path).state.Fits
      rw [state_load]
      exact h.foldl_merge fun e he => fits_of_mem_liveEntries he
  | merge e => exact h.merge hwords
  | _ => exact h

theorem Fits.run (h : c.Fits) {ms : List (Moment v)} (hms : forall m, m ∈ ms -> m.Fits form) :
    (c.run form ms).Fits := by
  induction ms generalizing c with
  | nil => exact h
  | cons m ms ih =>
      exact ih (h.act (hms m List.mem_cons_self)) fun m' hm' =>
        hms m' (List.mem_cons_of_mem _ hm')

theorem fits_new (o : Options) : ((new o).state : Cache v).Fits := by
  rcases exists_new_eq (v := v) o with ⟨options, _, hnew⟩
  rw [hnew]
  exact fun _ => nofun

end Cache
end CodeSurvey
