import CodeSurvey.Proofs.Json.Printing
import CodeSurvey.Proofs.Record.Walking
import CodeSurvey.Proofs.Steps
import CodeSurvey.Json.Reader

/-!
# Reading records

A record has been read when every field has: what is known of the reader of a field is known
of its value.  Conversely, a record can be read from members that each belong to a field of
their own and can be read there.
-/

namespace CodeSurvey
namespace Record

variable {s a b : Type}

/-!
# Putting a record together
-/

namespace Fields

theorem assemble_eq_ok_iff {fields : Fields s (a -> b)} {name : String} {r : Reader s a}
    {found : String -> Option s} {y : b} :
    (fields.apply (.required name r)).assemble found = .ok y ↔
      exists f x z, fields.assemble found = .ok f ∧ found name = some x ∧ r x = .ok z ∧
        f z = y := by
  unfold apply required
  simp only [bind_eq_ok_iff]
  constructor
  · rintro ⟨f, hf, z, hread, heq⟩
    cases hfound : found name with
    | none =>
        rw [hfound] at hread
        cases hread
    | some x =>
        rw [hfound] at hread
        cases heq
        exact ⟨f, x, z, hf, rfl, hread, rfl⟩
  · rintro ⟨f, x, z, hf, hfound, hread, rfl⟩
    rw [hfound]
    exact ⟨f, hf, z, hread, rfl⟩

variable [Source s]

theorem exists_assemble_of_read {fields : Fields s a} {x : s} {y : a}
    (h : fields.read x = .ok y) : exists found, fields.assemble found = .ok y := by
  unfold read at h
  split at h
  next => cases h
  next members ending =>
    split at h
    next => cases h
    next => exact ⟨_, h⟩
  next items ending =>
    split at h
    next => cases h
    next => exact ⟨_, h⟩

end Fields

/-!
# Values
-/

namespace Reader

theorem fault_eq_none {r : Reader s a} {x : s} {y : a} (h : r x = .ok y) : r.fault x = none := by
  unfold fault
  rw [h]

theorem exists_of_fault_eq_none {r : Reader s a} {x : s} (h : r.fault x = none) :
    exists y, r x = .ok y := by
  unfold fault at h
  split at h
  next y hread => exact ⟨y, hread⟩
  next => cases h

theorem lt_of_below [Source s] {bound n : Nat} {x : s} (h : below bound x = .ok n) :
    n < bound := by
  rcases bind_eq_ok_iff.mp h with ⟨m, _, h⟩
  split at h
  next hlt =>
    cases h
    exact hlt
  next => cases h

end Reader
end Record

namespace Json

theorem Outline.ofMembers_eq_map (members : List (String × Value)) :
    ofMembers members = members.map fun m => (some m.1, ofValue m.2) := by
  induction members with
  | nil => rfl
  | cons m members ih =>
      unfold ofMembers
      rw [ih]
      rfl

theorem Outline.ofItems_eq_map (vs : List Value) : ofItems vs = vs.map ofValue := by
  induction vs with
  | nil => rfl
  | cons v vs ih =>
      unfold ofItems
      rw [ih, List.map_cons]

open Record.Fields (Clean) in
theorem clean_ofMembers {slots : List (Record.Slot Outline)} {members : List (String × Value)}
    (hnodup : (members.map Prod.fst).Nodup)
    (hread : forall m, m ∈ members -> exists slot,
      slots.find? (fun slot => slot.name = m.1) = some slot ∧ slot.fault (.ofValue m.2) = none) :
    Clean slots (Outline.ofMembers members) := by
  rw [Outline.ofMembers_eq_map]
  constructor
  case accepts =>
    intro m' hm'
    rcases List.mem_map.mp hm' with ⟨m, hm, rfl⟩
    rcases hread m hm with ⟨slot, hslot, hfault⟩
    exact .known hslot hfault
  case once =>
    apply List.Nodup.filter
    have hkeys := hnodup.map (fun _ _ => Option.some.inj)
    rw [List.map_map] at hkeys ⊢
    exact hkeys

/-- A record is put together from the members of an object when these can be read. -/
theorem read_object {fields : Record.Fields Outline a} {members : List (String × Value)}
    (hnodup : (members.map Prod.fst).Nodup)
    (hread : forall m, m ∈ members -> exists slot,
      fields.slots.find? (fun slot => slot.name = m.1) = some slot ∧
        slot.fault (.ofValue m.2) = none) :
    fields.read (.ofValue (.object members)) =
      fields.assemble (Record.Fields.findNamed (Outline.ofMembers members)) := by
  have hfault : Record.Fields.namedFault fields.slots none [] (Outline.ofMembers members) =
      none :=
    Record.Fields.namedFault_eq_none_iff.mpr ⟨rfl, clean_ofMembers hnodup hread, nofun⟩
  have hparts : Record.Source.parts (Outline.ofValue (.object members)) =
      .named (Outline.ofMembers members) none := rfl
  unfold Record.Fields.read
  rw [hparts]
  simp only
  rw [hfault]

namespace Reader

theorem below_natural {n bound : Nat} (h : n < bound) :
    Record.Reader.below bound (Outline.ofValue (.nat n)) = .ok n := by
  have hnatural : Record.Source.natural (Outline.ofValue (.nat n)) = .ok n := by
    show (if 0 ≤ (n : Int) then Except.ok (n : Int).toNat else .error Fault.mismatch) = _
    rw [if_pos (Int.natCast_nonneg n), Int.toNat_natCast]
  exact bind_eq_ok_iff.mpr ⟨n, hnatural, if_pos h⟩

theorem integer_int {i low high : Int} (hlow : low ≤ i) (hhigh : i < high) :
    integer low high (Outline.ofValue (.int i)) = .ok i :=
  if_pos ⟨hlow, hhigh⟩

theorem bounds_of_integer {low high i : Int} {o : Outline} (h : integer low high o = .ok i) :
    low ≤ i ∧ i < high := by
  unfold integer at h
  split at h
  next =>
    split at h
    next hbounds =>
      cases h
      exact hbounds
    next => cases h
  next => cases h

theorem list_ofItems {r : Reader a} {encode : a -> Value} {xs : List a}
    (h : forall x, x ∈ xs -> r (.ofValue (encode x).canonical) = .ok x) :
    list r (.ofValue (Value.list encode xs).canonical) = .ok xs := by
  have hitems : (Outline.ofItems (Value.canonicalItems (xs.map encode))).mapM r = .ok xs := by
    induction xs with
    | nil => rfl
    | cons x xs ih =>
        have hrest := ih fun y hy => h y (List.mem_cons_of_mem _ hy)
        simp only [List.map_cons, Value.canonicalItems, Outline.ofItems, List.mapM_cons,
          h x List.mem_cons_self, hrest]
        rfl
  exact bind_eq_ok_iff.mpr ⟨xs, hitems, rfl⟩

theorem list_eq_ok_iff {r : Reader a} {items : List Outline} {ending : Ending}
    {xs : List a} :
    list r (.array items ending) = .ok xs ↔
      List.Forall₂ (fun o x => r o = .ok x) items xs ∧ ending = .closed := by
  unfold list
  simp only [bind_eq_ok_iff, mapM_eq_ok_iff]
  cases ending with
  | closed =>
      constructor
      · rintro ⟨ys, hitems, ⟨⟩⟩
        exact ⟨hitems, rfl⟩
      · exact fun h => ⟨xs, h.1, rfl⟩
  | cut fault =>
      constructor
      · rintro ⟨ys, _, ⟨⟩⟩
      · rintro ⟨_, ⟨⟩⟩

theorem exists_of_list {r : Reader a} {o : Outline} {xs : List a} (h : list r o = .ok xs)
    {x : a} (hx : x ∈ xs) : exists o, r o = .ok x := by
  cases o with
  | array items ending =>
      rcases exists_of_forall₂ (list_eq_ok_iff.mp h).1 hx with ⟨o, _, hread⟩
      exact ⟨o, hread⟩
  | _ => cases h

end Reader
end Json
end CodeSurvey
