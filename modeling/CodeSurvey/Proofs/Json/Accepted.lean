import CodeSurvey.Graph.PathSet
import CodeSurvey.Proofs.Json.Bounds
import Mathlib.Data.List.Perm.Basic

/-!
# Free-form values that have been read

A value of any shape that was read from a text lists the members of its objects in the order of
their keys, and it is bounded as the outline of the text is.  It can be written and read again
if the floating-point numbers in it can.
-/

namespace CodeSurvey
namespace Json
namespace Value

/-!
# Members in the order of their keys
-/

def Ascending (ms : List (String × Value)) : Prop :=
  (ms.map Prod.fst).Pairwise (· < ·)

theorem keys_insertMember (key : String) (v : Value) (ms : List (String × Value)) :
    (insertMember key v ms).map Prod.fst =
      Graph.PathSet.insertAscending key (ms.map Prod.fst) := by
  induction ms with
  | nil => rfl
  | cons m ms ih =>
      rcases m with ⟨k, w⟩
      unfold insertMember
      rw [List.map_cons]
      unfold Graph.PathSet.insertAscending
      simp only
      split
      next => rfl
      next =>
        split
        next heq => rw [List.map_cons, heq]
        next => rw [List.map_cons, ih]

theorem ascending_sortMembers (ms : List (String × Value)) : Ascending (sortMembers ms) := by
  induction ms using List.reverseRecOn with
  | nil => exact List.Pairwise.nil
  | append_singleton ms m ih =>
      have hlast : sortMembers (ms ++ [m]) = insertMember m.1 m.2 (sortMembers ms) :=
        List.foldl_append
      unfold Ascending
      rw [hlast, keys_insertMember]
      exact Graph.PathSet.ascending_insertAscending ih

theorem Ascending.nodup {ms : List (String × Value)} (h : Ascending ms) :
    (ms.map Prod.fst).Nodup := by
  apply List.Pairwise.imp _ h
  rintro key _ hlt rfl
  exact String.lt_irrefl key hlt

theorem Ascending.sortMembers_eq {ms : List (String × Value)} (h : Ascending ms) :
    sortMembers ms = ms := by
  apply (sortMembers_perm h.nodup).eq_of_pairwise _
    (List.pairwise_map.mp (ascending_sortMembers ms)) (List.pairwise_map.mp h)
  intro m m' _ _ hlt hgt
  exact absurd (String.lt_trans hlt hgt) (String.lt_irrefl _)

theorem mem_insertMember {key : String} {v : Value} {ms : List (String × Value)}
    {m : String × Value} (h : m ∈ insertMember key v ms) : m = (key, v) ∨ m ∈ ms := by
  induction ms with
  | nil => exact Or.inl (List.mem_singleton.mp h)
  | cons m' ms ih => grind [insertMember]

theorem mem_sortMembers {ms : List (String × Value)} {m : String × Value}
    (h : m ∈ sortMembers ms) : m ∈ ms := by
  induction ms using List.reverseRecOn with
  | nil => exact h
  | append_singleton ms m' ih =>
      have hlast : sortMembers (ms ++ [m']) = insertMember m'.1 m'.2 (sortMembers ms) :=
        List.foldl_append
      rw [hlast] at h
      cases mem_insertMember h with
      | inl heq => exact List.mem_append_right _ (List.mem_singleton.mpr heq)
      | inr hmem => exact List.mem_append_left _ (ih hmem)

theorem canonical_array {vs : List Value} (h : forall v, v ∈ vs -> v.canonical = v) :
    (array vs).canonical = array vs := by
  have hitems : canonicalItems vs = vs := by
    induction vs with
    | nil => rfl
    | cons v vs ih =>
        unfold canonicalItems
        rw [h v List.mem_cons_self, ih fun w hw => h w (List.mem_cons_of_mem _ hw)]
  unfold canonical
  rw [hitems]

theorem canonical_sortMembers {ms : List (String × Value)}
    (h : forall m, m ∈ ms -> m.2.canonical = m.2) :
    (object (sortMembers ms)).canonical = object (sortMembers ms) := by
  have hmembers : (sortMembers ms).map (fun m => (m.1, m.2.canonical)) = sortMembers ms := by
    have hsame : forall m, m ∈ sortMembers ms -> (m.1, m.2.canonical) = id m :=
      fun m hm => Prod.ext rfl (h m (mem_sortMembers hm))
    rw [List.map_congr_left hsame, List.map_id]
  rw [canonical_object, hmembers, (ascending_sortMembers ms).sortMembers_eq]

/-!
# Bounds
-/

/-- No more than `depth` arrays and objects stand inside of one another, and integers are
words. -/
inductive Bounded : Nat -> Value -> Prop where
  | null : Bounded depth .null
  | flag : Bounded depth (.flag b)
  | number (h : n.Word) : Bounded depth (.number n)
  | text : Bounded depth (.text s)
  | array (h : forall v, v ∈ items -> Bounded depth v) : Bounded (depth + 1) (.array items)
  | object (h : forall m, m ∈ members -> Bounded depth m.2) :
      Bounded (depth + 1) (.object members)

/-- The floating-point numbers of the value are read as they are written. -/
inductive Legible : Value -> Prop where
  | null : Legible .null
  | flag : Legible (.flag b)
  | integer : Legible (.number (.integer i))
  | float (h : (Number.float x).Legible) : Legible (.number (.float x))
  | text : Legible (.text s)
  | array (h : forall v, v ∈ items -> Legible v) : Legible (.array items)
  | object (h : forall m, m ∈ members -> Legible m.2) : Legible (.object members)

example : Legible (.number (.float 0.5)) := by
  apply Legible.float
  unfold Number.Legible
  decide +kernel

theorem Bounded.readable {depth : Nat} {v : Value} (h : v.Bounded depth) (hlegible : v.Legible) :
    v.Readable depth := by
  induction h with
  | null => exact .null
  | flag => exact .flag
  | number hword =>
      cases hlegible with
      | integer => exact .number (Number.legible_integer hword.1 hword.2)
      | float hfloat => exact .number hfloat
  | text => exact .text
  | array _ ih =>
      cases hlegible with
      | array hitems => exact .array fun v hv => ih v hv (hitems v hv)
  | object _ ih =>
      cases hlegible with
      | object hmembers => exact .object fun m hm => ih m hm (hmembers m hm)

end Value

namespace Outline

theorem items?_eq_ok_iff {os : List Outline} {vs : List Value} :
    items? os = .ok vs ↔ List.Forall₂ (fun o v => o.value? = .ok v) os vs := by
  have hmapM : items? os = os.mapM Outline.value? := by
    induction os with
    | nil => rfl
    | cons o os ih =>
        unfold items?
        rw [ih, List.mapM_cons]
  rw [hmapM]
  exact mapM_eq_ok_iff

/-- The member has been read: its name and its value. -/
def ReadsMember (o : Option String × Outline) (m : String × Value) : Prop :=
  o.1 = some m.1 ∧ o.2.value? = .ok m.2

theorem members?_eq_ok_iff {os : List (Option String × Outline)} {ms : List (String × Value)} :
    members? os = .ok ms ↔ List.Forall₂ ReadsMember os ms := by
  induction os generalizing ms with
  | nil =>
      rw [List.forall₂_nil_left_iff]
      constructor
      · rintro ⟨⟩
        rfl
      · rintro rfl
        rfl
  | cons o os ih =>
      rcases o with ⟨key, o⟩
      rw [List.forall₂_cons_left_iff]
      cases key with
      | none =>
          constructor
          · rintro ⟨⟩
          · rintro ⟨m, _, ⟨hkey, _⟩, _⟩
            cases hkey
      | some key =>
          unfold members?
          constructor
          · intro h
            rcases bind_eq_ok_iff.mp h with ⟨v, hread, h⟩
            rcases bind_eq_ok_iff.mp h with ⟨ms', hrest, h⟩
            cases h
            exact ⟨(key, v), ms', ⟨rfl, hread⟩, ih.mp hrest, rfl⟩
          · rintro ⟨⟨_, v⟩, ms', ⟨⟨⟩, hread⟩, hrest, rfl⟩
            exact bind_eq_ok_iff.mpr ⟨v, hread, bind_eq_ok_iff.mpr ⟨ms', ih.mpr hrest, rfl⟩⟩

theorem value?_array_eq_ok_iff {os : List Outline} {ending : Ending} {v : Value} :
    (array os ending).value? = .ok v ↔
      exists vs, List.Forall₂ (fun o v => o.value? = .ok v) os vs ∧ endedWell ending = .ok () ∧
        v = .array vs := by
  rw [Outline.value?]
  simp only [bind_eq_ok_iff, items?_eq_ok_iff]
  constructor
  · rintro ⟨vs, hitems, _, hending, ⟨⟩⟩
    exact ⟨vs, hitems, hending, rfl⟩
  · rintro ⟨vs, hitems, hending, rfl⟩
    exact ⟨vs, hitems, (), hending, rfl⟩

theorem value?_object_eq_ok_iff {os : List (Option String × Outline)} {ending : Ending}
    {v : Value} :
    (object os ending).value? = .ok v ↔
      exists ms, List.Forall₂ ReadsMember os ms ∧ endedWell ending = .ok () ∧
        v = .object (Value.sortMembers ms) := by
  rw [Outline.value?]
  simp only [bind_eq_ok_iff, members?_eq_ok_iff]
  constructor
  · rintro ⟨ms, hmembers, _, hending, ⟨⟩⟩
    exact ⟨ms, hmembers, hending, rfl⟩
  · rintro ⟨ms, hmembers, hending, rfl⟩
    exact ⟨ms, hmembers, (), hending, rfl⟩

/-- What is read of a bounded outline is bounded too, and in order. -/
theorem Bounded.value? {depth : Nat} {o : Outline} (h : o.Bounded depth) {v : Value}
    (hread : o.value? = .ok v) : v.Bounded depth ∧ v.canonical = v := by
  induction h generalizing v with
  | broken => cases hread
  | null =>
      cases hread
      exact ⟨.null, rfl⟩
  | flag =>
      cases hread
      exact ⟨.flag, rfl⟩
  | @number n _ hword =>
      cases n with
      | none => cases hread
      | some n =>
          cases hread
          exact ⟨.number (hword n rfl), rfl⟩
  | @text _ s =>
      cases s with
      | none => cases hread
      | some s =>
          cases hread
          exact ⟨.text, rfl⟩
  | @array items depth ending _ ih =>
      rcases value?_array_eq_ok_iff.mp hread with ⟨vs, hitems, _, rfl⟩
      have hall : forall v, v ∈ vs -> v.Bounded depth ∧ v.canonical = v := by
        intro v hv
        rcases exists_of_forall₂ hitems hv with ⟨o, ho, hvalue⟩
        exact ih o ho hvalue
      exact ⟨.array fun v hv => (hall v hv).1, Value.canonical_array fun v hv => (hall v hv).2⟩
  | @object members depth ending _ ih =>
      rcases value?_object_eq_ok_iff.mp hread with ⟨ms, hmembers, _, rfl⟩
      have hall : forall m, m ∈ ms -> m.2.Bounded depth ∧ m.2.canonical = m.2 := by
        intro m hm
        rcases exists_of_forall₂ hmembers hm with ⟨o, ho, _, hvalue⟩
        exact ih o ho hvalue
      exact ⟨.object fun m hm => (hall m (Value.mem_sortMembers hm)).1,
        Value.canonical_sortMembers fun m hm => (hall m hm).2⟩
  | deep => cases hread

/-!
# Members in another order
-/

/-- The members of one object, which have keys of their own, are put in another order. -/
inductive Reordered : Outline -> Outline -> Prop where
  | members (hperm : members.Perm members') (hkeys : (members.map Prod.fst).Nodup) :
      Reordered (.object members ending) (.object members' ending)
  | insideMember (h : Reordered o o') :
      Reordered (.object (before ++ (key, o) :: after) ending)
        (.object (before ++ (key, o') :: after) ending)
  | insideItem (h : Reordered o o') :
      Reordered (.array (before ++ o :: after) ending) (.array (before ++ o' :: after) ending)

theorem map_keys_of_reads {os : List (Option String × Outline)} {ms : List (String × Value)}
    (h : List.Forall₂ ReadsMember os ms) : os.map Prod.fst = (ms.map Prod.fst).map some := by
  induction h with
  | nil => rfl
  | cons hhead _ ih => rw [List.map_cons, List.map_cons, List.map_cons, hhead.1, ih]

/-- The order of the members of an object does not matter. -/
theorem Reordered.value? {o o' : Outline} (h : Reordered o o') {v : Value}
    (hread : o.value? = .ok v) : o'.value? = .ok v := by
  induction h generalizing v with
  | members hperm hkeys =>
      rcases value?_object_eq_ok_iff.mp hread with ⟨ms, hmembers, hending, rfl⟩
      rcases List.perm_comp_forall₂ hperm.symm hmembers with ⟨ms', hmembers', hperm'⟩
      have hnodup : (ms.map Prod.fst).Nodup := by
        rw [map_keys_of_reads hmembers] at hkeys
        exact hkeys.of_map some
      have hsorted := Value.sortMembers_eq_of_perm hperm'.symm hnodup
      exact value?_object_eq_ok_iff.mpr ⟨ms', hmembers', hending, congrArg Value.object hsorted⟩
  | @insideMember o o' before key after ending _ ih =>
      rcases value?_object_eq_ok_iff.mp hread with ⟨ms, hmembers, hending, rfl⟩
      have hmember : forall m, ReadsMember (key, o) m -> ReadsMember (key, o') m :=
        fun m hm => ⟨hm.1, ih hm.2⟩
      have hmembers' := forall₂_replace hmember hmembers
      exact value?_object_eq_ok_iff.mpr ⟨ms, hmembers', hending, rfl⟩
  | insideItem _ ih =>
      rcases value?_array_eq_ok_iff.mp hread with ⟨vs, hitems, hending, rfl⟩
      have hitems' := forall₂_replace (fun v hv => ih hv) hitems
      exact value?_array_eq_ok_iff.mpr ⟨vs, hitems', hending, rfl⟩

end Outline
end Json
end CodeSurvey
