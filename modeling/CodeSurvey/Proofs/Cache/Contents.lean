import CodeSurvey.Proofs.Cache.Operation

/-!
# What a cache knows

A cache is a partial map from keys to values.  A look-up or a write changes this map at its
own key; at another key, a write can only take out the value that was not used for the
longest time.
-/

namespace CodeSurvey
namespace Cache

variable {c : Cache v} {now : Int} {key other : String}

/-- The value under a key, whether or not it has expired. -/
def value? (c : Cache v) (key : String) : Option v :=
  (c.find? key).map Entry.value

/-!
# Finding
-/

theorem find?_cons (c : Cache v) (e : Entry v) (rest : List (Entry v)) (key : String) :
    find? { c with stored := e :: rest } key =
      if e.key = key then some e else find? { c with stored := rest } key := by
  unfold find?
  simp only [List.find?_cons]
  by_cases h : e.key = key
  · rw [if_pos h, decide_eq_true h]
  · rw [if_neg h, decide_eq_false h]

theorem find?_without_self (c : Cache v) (key : String) :
    find? { c with stored := c.without key } key = none := by
  apply find?_eq_none_iff.mpr
  show key ∉ (c.without key).map Entry.key
  rw [map_key_without]
  simp

theorem find?_without_of_ne (h : other ≠ key) :
    find? { c with stored := c.without key } other = c.find? other := by
  unfold find? without
  rw [List.find?_filter]
  congr 1
  funext e
  by_cases heq : e.key = other
  · simp [heq, h]
  · simp [heq]

theorem find?_concat (c : Cache v) (rest : List (Entry v)) (last : Entry v) (key : String) :
    find? { c with stored := rest ++ [last] } key =
      (find? { c with stored := rest } key).or (if last.key = key then some last else none) := by
  unfold find?
  simp only [List.find?_append, List.find?_singleton, decide_eq_true_iff]

/-!
# Looking up
-/

theorem result_get (c : Cache v) (now : Int) (key : String) :
    (c.get now key).result = if c.has now key then c.value? key else none := by
  unfold get has value?
  cases hfind : c.find? key with
  | none => rfl
  | some e =>
      cases hexpired : isExpired c.options now e with
      | true => simp [hexpired]
      | false => simp [hexpired, Log.Outcome.quiet]

/-- A look-up takes away the value that it finds expired, and nothing else. -/
theorem value?_get (c : Cache v) (now : Int) (key other : String) :
    (c.get now key).state.value? other = c.value? other ∨
      (c.get now key).state.value? other = none ∧ key = other ∧
        exists e, c.find? key = some e ∧ isExpired c.options now e = true := by
  unfold get value?
  cases hfind : c.find? key with
  | none => exact Or.inl rfl
  | some e =>
      have hkey := key_eq_of_find?_eq_some hfind
      by_cases hother : key = other
      · subst hother
        simp only
        split
        next hexpired =>
          right
          exact ⟨congrArg (Option.map Entry.value) (c.find?_without_self key), trivial, e, rfl,
            hexpired⟩
        next =>
          left
          show (find? { c with stored := _ :: c.without key } key).map Entry.value = _
          rw [find?_cons, if_pos hkey, hfind]
          rfl
      · left
        have hwithout := find?_without_of_ne (c := c) (Ne.symm hother)
        simp only
        split
        next => exact congrArg (Option.map Entry.value) hwithout
        next =>
          show (find? { c with stored := _ :: c.without key } other).map Entry.value = _
          rw [find?_cons, if_neg (hkey ▸ hother), hwithout]

/-!
# Writing
-/

/-- To write a new key at full capacity takes out the one that was used least recently. -/
def Evicts (c : Cache v) (key other : String) : Prop :=
  key ∉ c.keys ∧ c.options.maxSize ≤ c.size ∧ c.keys.getLast? = some other

theorem value?_merge_self (c : Cache v) (e : Entry v) :
    (c.merge e).state.value? e.key = some e.value := by
  have hfirst : forall rest, (find? { c with stored := e :: rest } e.key).map Entry.value =
      some e.value := by
    intro rest
    rw [find?_cons, if_pos rfl]
    rfl
  by_cases hmem : e.key ∈ c.keys
  · rw [state_merge_of_mem hmem]
    exact hfirst _
  · rw [merge_of_not_mem hmem]
    unfold insertNew
    split
    · split
      · exact hfirst _
      · exact hfirst _
    · exact hfirst _

theorem value?_merge_of_ne {e : Entry v} (h : e.key ≠ other) :
    (c.merge e).state.value? other = c.value? other ∨
      (c.merge e).state.value? other = none ∧ c.Evicts e.key other := by
  by_cases hmem : e.key ∈ c.keys
  · left
    rw [state_merge_of_mem hmem]
    unfold value?
    rw [find?_cons, if_neg h, find?_without_of_ne h.symm]
  · cases Nat.lt_or_ge c.size c.options.maxSize with
    | inl hroom =>
        left
        rw [state_merge_of_lt hmem hroom]
        unfold value?
        rw [find?_cons, if_neg h]
    | inr hfull =>
        rcases List.eq_nil_or_concat c.stored with hnil | ⟨rest, last, hconcat⟩
        · left
          rw [merge_of_not_mem hmem]
          unfold insertNew value?
          rw [hnil]
          show (find? { c with stored := [e] } other).map Entry.value = _
          rw [find?_cons, if_neg h]
          unfold find?
          rw [hnil]
        · have hstored : c.stored = rest ++ [last] := hconcat.trans List.concat_eq_append
          have hkeys : c.keys.getLast? = some last.key := by
            unfold keys
            rw [hstored, List.map_append, List.map_singleton, List.getLast?_concat]
          have hold : c.find? other =
              (find? { c with stored := rest } other).or
                (if last.key = other then some last else none) := by
            rw [← find?_concat, ← hstored]
          have hnew : (c.merge e).state.find? other = find? { c with stored := rest } other := by
            rw [state_merge_of_le hmem hfull hstored]
            exact (find?_cons c e rest other).trans (if_neg h)
          unfold value?
          rw [hnew, hold]
          -- The last entry matters only where no other has its key.
          cases find? { c with stored := rest } other with
          | some found => exact Or.inl rfl
          | none =>
              by_cases hlast : last.key = other
              · exact Or.inr ⟨rfl, hmem, hfull, hlast ▸ hkeys⟩
              · rw [if_neg hlast]
                exact Or.inl rfl

theorem value?_set_self (c : Cache v) (form : Form v) (now : Int) (key : String) (value : v) :
    (c.set form now key value).state.value? key = some value := by
  rcases c.exists_hits_setSized now key value (form.size value) with ⟨hits, hset⟩
  unfold set
  rw [hset]
  exact value?_merge_self c _

theorem value?_set_of_ne (form : Form v) (now : Int) (value : v) (h : key ≠ other) :
    (c.set form now key value).state.value? other = c.value? other ∨
      (c.set form now key value).state.value? other = none ∧ c.Evicts key other := by
  rcases c.exists_hits_setSized now key value (form.size value) with ⟨hits, hset⟩
  unfold set
  rw [hset]
  exact value?_merge_of_ne h

end Cache
end CodeSurvey
