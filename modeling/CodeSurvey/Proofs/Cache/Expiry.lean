import CodeSurvey.Proofs.Cache.Reloading

/-!
# When entries expire

All operations that ask for it agree on which entries have expired: those that are older
than their lifetime, and not so old that their age is no signed word.
-/

namespace CodeSurvey
namespace Cache

variable {c : Cache v} {form : Form v} {o : Options} {now : Int}

/-!
# Signed words
-/

/-- Older than its lifetime allows, by exact arithmetic. -/
def Overdue (o : Options) (now : Int) (e : Entry v) : Prop :=
  0 < o.ttlMs ∧ (o.ttlMs : Int) < now - e.timestamp

instance (o : Options) (now : Int) (e : Entry v) : Decidable (Overdue o now e) :=
  inferInstanceAs (Decidable (0 < o.ttlMs ∧ (o.ttlMs : Int) < now - e.timestamp))

theorem signedWord_of_lt {i : Int} (hlow : -timeLimit ≤ i) (hhigh : i < timeLimit) :
    signedWord i = i := by
  have htime : timeLimit = 9223372036854775808 := by decide
  have hsize : wordSize = 18446744073709551616 := by decide
  unfold signedWord
  rw [Int.bmod_def, hsize]
  split
  · omega
  · omega

theorem signedWord_of_le {i : Int} (hlow : timeLimit ≤ i) (hhigh : i < 2 * timeLimit) :
    signedWord i < 0 := by
  have htime : timeLimit = 9223372036854775808 := by decide
  have hsize : wordSize = 18446744073709551616 := by decide
  unfold signedWord
  rw [Int.bmod_def, hsize]
  split
  · omega
  · omega

theorem isExpired_iff (httl : o.ttlMs < wordSize) {e : Entry v} (he : e.Fits) (hlow : 0 ≤ now)
    (hhigh : now < timeLimit) :
    isExpired o now e = true ↔ Overdue o now e ∧ now - e.timestamp < timeLimit := by
  have htime : (wordSize : Int) = 2 * timeLimit := by decide
  have hage : -timeLimit ≤ now - e.timestamp ∧ now - e.timestamp < 2 * timeLimit := by
    have hfirst := he.low
    have hlast := he.high
    omega
  have hpositive : 0 < timeLimit := by decide
  unfold isExpired lifetime Overdue
  rw [Bool.and_eq_true, decide_eq_true_iff, decide_eq_true_iff]
  -- A lifetime or an age that is too large for a signed word comes out negative.
  cases Int.lt_or_le (o.ttlMs : Int) timeLimit with
  | inr hlong =>
      have hnegative := signedWord_of_le hlong (htime ▸ Int.ofNat_lt.mpr httl)
      omega
  | inl hshort =>
      rw [signedWord_of_lt (by omega) hshort]
      cases Int.lt_or_le (now - e.timestamp) timeLimit with
      | inr hold =>
          have hnegative := signedWord_of_le hold hage.2
          omega
      | inl hyoung =>
          rw [signedWord_of_lt hage.1 hyoung]
          omega

/-!
# Operations that look at the age
-/

/-- Everywhere the same entries count as expired. -/
structure Expires (form : Form v) (c : Cache v) (now : Int) (gone : Entry v -> Bool) : Prop where
  has : forall key, c.has now key = (c.find? key).any fun e => !gone e
  found : forall key e, c.find? key = some e -> gone e = false ->
    (c.get now key).result = some e.value ∧
      (c.get now key).state.expirations = c.expirations ∧
      key ∈ (c.get now key).state.keys
  expired : forall key e, c.find? key = some e -> gone e = true ->
    (c.get now key).result = none ∧
      (c.get now key).state.expirations = c.expirations + 1 ∧
      key ∉ (c.get now key).state.keys
  entries : c.entries now = c.stored.filter fun e => !gone e
  pruned : (c.prune now).state.stored = c.stored.filter fun e => !gone e
  pruneCount : (c.prune now).result = (c.stored.filter gone).length
  persist : forall tree path, (c.persist form now tree path).result = .ok () ->
    exists (file : String) (d : Document v), c.resolvePath path = .ok file ∧
      d.InFile form (c.persist form now tree path).state file ∧
      d.entries = (c.stored.filter fun e => !gone e).reverse ∧
      forall e, e ∈ d.entries -> e.Fits
  load : forall tree path found, c.readDocument form tree path = .ok found ->
    (c.load form now tree path).result =
        .ok (found.2.entries.filter fun e => !gone e).length ∧
      (c.load form now tree path).state =
        (found.2.entries.filter fun e => !gone e).foldl (fun c e => (c.merge e).state) c

theorem expires_of_isExpired (hfits : c.Fits) {gone : Entry v -> Bool}
    (h : forall e : Entry v, e.Fits -> isExpired c.options now e = gone e) :
    Expires form c now gone := by
  have hlive : forall {es : List (Entry v)}, (forall e, e ∈ es -> e.Fits) ->
      es.filter (fun e => !isExpired c.options now e) = es.filter fun e => !gone e := by
    intro es hes
    apply List.filter_congr
    intro e he
    rw [h e (hes e he)]
  have hfound : forall key e, c.find? key = some e -> isExpired c.options now e = gone e :=
    fun key e hfind => h e (hfits e (List.mem_of_find?_eq_some hfind))
  constructor
  case has =>
    intro key
    unfold has
    cases hfind : c.find? key with
    | none => rfl
    | some e => exact congrArg not (hfound key e hfind)
  case found =>
    intro key e hfind hgone
    have hkey := key_eq_of_find?_eq_some hfind
    unfold get
    simp only [hfind, hfound key e hfind, hgone]
    exact ⟨rfl, rfl, hkey ▸ List.mem_cons_self⟩
  case expired =>
    intro key e hfind hgone
    unfold get
    simp only [hfind, hfound key e hfind, hgone]
    refine ⟨rfl, rfl, ?_⟩
    show key ∉ (c.without key).map Entry.key
    rw [map_key_without, List.mem_filter]
    exact fun hmem => of_decide_eq_true hmem.2 rfl
  case entries => exact hlive hfits
  case pruned => exact hlive hfits
  case pruneCount =>
    show (c.stored.filter (isExpired c.options now)).length = _
    rw [List.filter_congr fun e he => h e (hfits e he)]
  case persist =>
    intro tree path hpersist
    rcases inFile_persist hpersist with ⟨file, hfile, hdocument⟩
    refine ⟨file, c.document now, hfile, hdocument, congrArg List.reverse (hlive hfits), ?_⟩
    exact fun e he => hfits e (List.mem_of_mem_filter (List.mem_reverse.mp he))
  case load =>
    intro tree path found hdocument
    have hentries : c.liveEntries form now tree path =
        found.2.entries.filter fun e => !gone e := by
      unfold liveEntries
      rw [hdocument]
      exact hlive fun e he => fits_of_readDocument hdocument he
    rw [result_load hdocument, state_load, hentries]
    exact ⟨rfl, rfl⟩

/-- What is old enough has expired, unless its age is not a signed word. -/
theorem expires_run (form : Form v) {o : Options} (httl : o.ttlMs < wordSize)
    {ms : List (Moment v)} (hms : forall m, m ∈ ms -> m.Fits form) {now : Int} (hlow : 0 ≤ now)
    (hhigh : now < timeLimit) :
    Expires form ((new o).state.run form ms) now fun e =>
      decide (Overdue o now e ∧ now - e.timestamp < timeLimit) := by
  apply expires_of_isExpired ((fits_new o).run hms)
  intro e he
  apply Bool.eq_iff_iff.mpr
  rw [decide_eq_true_iff, options_run, state_new]
  exact isExpired_iff httl he hlow hhigh

/-- One entry of two has expired. -/
theorem expires_oldest :
    let o : Options := { maxSize := 2, ttlMs := 50, persistPath := none }
    let c : Cache String := (new o).state.run .text [⟨0, .set "a" "1"⟩, ⟨40, .set "b" "2"⟩]
    (Expires .text c 60 fun e => decide (Overdue o 60 e ∧ 60 - e.timestamp < timeLimit)) ∧
      c.has 60 "a" = false ∧ c.has 60 "b" = true ∧ (c.prune 60).result = 1 := by
  intro o c
  have hms : forall m, m ∈ [⟨0, .set "a" "1"⟩, ⟨40, .set "b" "2"⟩] ->
      Moment.Fits Form.text m := by decide +kernel
  exact ⟨expires_run .text (o := o) (by decide) hms (by decide) (by decide), by decide +kernel⟩

/-- A lifetime that is no signed word counts as none: what a file says to be that old is
found. -/
theorem not_expires_overdue :
    let o : Options := { maxSize := 10, ttlMs := Nat.pow 2 63, persistPath := none }
    let text := "\x7b\"version\": \"1.0.0\", \"createdAt\": \"\", \"entries\": [\x7b" ++
      "\"key\": \"old\", \"value\": \"v\", \"size\": 1, \"hits\": 0, " ++
      "\"timestamp\": -9223372036854775808\x7d]\x7d"
    let c : Cache String := (new o).state.run .text
      [⟨1, .load ⟨[(["c.json"], .file text.toUTF8)]⟩ (some "c.json")⟩]
    ¬ Expires .text c 1 fun e => decide (Overdue o 1 e) := by
  intro o text c hexpires
  have hhas : c.has 1 "old" = true := by decide +kernel
  have hgone : ((c.find? "old").any fun e => !decide (Overdue o 1 e)) = false := by
    decide +kernel
  rw [hexpires.has "old", hgone] at hhas
  cases hhas

end Cache
end CodeSurvey
