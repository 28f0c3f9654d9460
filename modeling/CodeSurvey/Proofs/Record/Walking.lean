import CodeSurvey.Record.Fields
import Mathlib.Data.List.Nodup

/-!
# Walking through a record

A record shows no fault if each of its members belongs to a field that can read it, or to none,
and no field is given twice.  Then the order of the members does not matter: what is found for
a field is the one member that has its name.
-/

namespace CodeSurvey
namespace Record
namespace Fields

variable {s : Type} {slots : List (Slot s)} {members members' : List (Option String × s)}

/-!
# Fields and names
-/

theorem find?_eq_none_iff {name : String} :
    slots.find? (fun slot => slot.name = name) = none ↔ name ∉ slots.map Slot.name := by
  rw [List.find?_eq_none, List.mem_map]
  constructor
  · rintro h ⟨slot, hslot, rfl⟩
    exact h slot hslot (decide_eq_true rfl)
  · intro h slot hslot heq
    exact h ⟨slot, hslot, of_decide_eq_true heq⟩

theorem mem_names_of_find? {name : String} {slot : Slot s}
    (h : slots.find? (fun slot => slot.name = name) = some slot) :
    name ∈ slots.map Slot.name := by
  by_contra hname
  rw [find?_eq_none_iff.mpr hname] at h
  cases h

/-- The names of the members that belong to fields. -/
def given (slots : List (Slot s)) (members : List (Option String × s)) : List (Option String) :=
  (members.map Prod.fst).filter fun name => name ∈ slots.map fun slot => some slot.name

theorem mem_names_iff {name : String} :
    some name ∈ (slots.map fun slot => some slot.name) ↔ name ∈ slots.map Slot.name := by
  simp only [List.mem_map, Option.some.injEq]

theorem given_cons_known {name : String} {x : s} (hname : name ∈ slots.map Slot.name) :
    given slots ((some name, x) :: members) = some name :: given slots members :=
  List.filter_cons_of_pos (decide_eq_true (mem_names_iff.mpr hname))

theorem given_cons_unknown {name : String} {x : s} (hname : name ∉ slots.map Slot.name) :
    given slots ((some name, x) :: members) = given slots members :=
  List.filter_cons_of_neg fun h => hname (mem_names_iff.mp (of_decide_eq_true h))

theorem findNamed_cons_self (name : String) (x : s) :
    findNamed ((some name, x) :: members) name = some x :=
  List.lookup_cons_self

theorem findNamed_cons_of_ne {name : String} {name' : Option String} (hne : some name ≠ name')
    (x : s) : findNamed ((name', x) :: members) name = findNamed members name := by
  unfold findNamed
  rw [List.lookup_cons, beq_eq_false_iff_ne.mpr hne]

theorem findNamed_eq_none {name : String} (hname : name ∈ slots.map Slot.name)
    (h : some name ∉ given slots members) : findNamed members name = none := by
  rw [findNamed, List.lookup_eq_none_iff]
  intro m hm
  apply bne_iff_ne.mpr
  rintro heq
  apply h
  apply List.mem_filter.mpr
  exact ⟨List.mem_map.mpr ⟨m, hm, heq.symm⟩, decide_eq_true (mem_names_iff.mpr hname)⟩

/-!
# Members without fault
-/

variable [Source s]

/-- The member does not stop a reader. -/
inductive Accepts (slots : List (Slot s)) : Option String × s -> Prop where
  | known (hslot : slots.find? (fun slot => slot.name = name) = some slot)
      (h : slot.fault x = none) : Accepts slots (some name, x)
  | unknown (hslot : slots.find? (fun slot => slot.name = name) = none)
      (h : Source.skipFault x = none) : Accepts slots (some name, x)

structure Clean (slots : List (Slot s)) (members : List (Option String × s)) : Prop where
  accepts : forall m, m ∈ members -> Accepts slots m
  once : (given slots members).Nodup

theorem Clean.tail {m : Option String × s} (h : Clean slots (m :: members)) :
    Clean slots members where
  accepts := fun m' hm' => h.accepts m' (List.mem_cons_of_mem _ hm')
  once := (((List.sublist_cons_self m members).map Prod.fst).filter _).nodup h.once

theorem clean_cons_unknown {name : String}
    (hslot : slots.find? (fun slot => slot.name = name) = none) {x : s} :
    Clean slots ((some name, x) :: members) ↔ Source.skipFault x = none ∧ Clean slots members := by
  have hname := find?_eq_none_iff.mp hslot
  constructor
  · intro h
    refine ⟨?_, h.tail⟩
    cases h.accepts _ List.mem_cons_self with
    | known hslot' => exact absurd (hslot'.symm.trans hslot) (by rintro ⟨⟩)
    | unknown _ hskip => exact hskip
  · rintro ⟨hskip, hrest⟩
    constructor
    case accepts =>
      intro m hm
      cases List.mem_cons.mp hm with
      | inl heq => exact heq ▸ .unknown hslot hskip
      | inr hmem => exact hrest.accepts m hmem
    case once =>
      rw [given_cons_unknown hname]
      exact hrest.once

theorem clean_cons_known {name : String} {slot : Slot s}
    (hslot : slots.find? (fun slot => slot.name = name) = some slot) {x : s} :
    Clean slots ((some name, x) :: members) ↔
      slot.fault x = none ∧ some name ∉ given slots members ∧ Clean slots members := by
  have hname := mem_names_of_find? hslot
  constructor
  · intro h
    have honce := h.once
    rw [given_cons_known hname, List.nodup_cons] at honce
    refine ⟨?_, honce.1, h.tail⟩
    cases h.accepts _ List.mem_cons_self with
    | known hslot' hfault =>
        cases hslot.symm.trans hslot'
        exact hfault
    | unknown hslot' _ => exact absurd (hslot.symm.trans hslot') (by rintro ⟨⟩)
  · rintro ⟨hfault, hnew, hrest⟩
    constructor
    case accepts =>
      intro m hm
      cases List.mem_cons.mp hm with
      | inl heq => exact heq ▸ .known hslot hfault
      | inr hmem => exact hrest.accepts m hmem
    case once =>
      rw [given_cons_known hname]
      exact List.nodup_cons.mpr ⟨hnew, hrest.once⟩

theorem namedFault_eq_none_iff {ending : Option Fault} {seen : List String} :
    namedFault slots ending seen members = none ↔
      ending = none ∧ Clean slots members ∧
        forall name, name ∈ seen -> some name ∉ given slots members := by
  induction members generalizing seen with
  | nil =>
      have hclean : Clean slots ([] : List (Option String × s)) := ⟨nofun, List.nodup_nil⟩
      exact ⟨fun h => ⟨h, hclean, fun _ _ => List.not_mem_nil⟩, fun h => h.1⟩
  | cons m members ih =>
      rcases m with ⟨name, x⟩
      cases name with
      | none =>
          constructor
          · rintro ⟨⟩
          · rintro ⟨_, hclean, _⟩
            cases hclean.accepts _ List.mem_cons_self
      | some name =>
          unfold namedFault
          cases hslot : slots.find? fun slot => slot.name = name with
          | none =>
              have hname := find?_eq_none_iff.mp hslot
              simp only [Option.or_eq_none_iff, ih, clean_cons_unknown hslot,
                given_cons_unknown hname]
              tauto
          | some slot =>
              have hname := mem_names_of_find? hslot
              simp only
              split
              next hseen =>
                constructor
                · rintro ⟨⟩
                · rintro ⟨_, _, hnew⟩
                  rw [given_cons_known hname] at hnew
                  exact absurd List.mem_cons_self (hnew name hseen)
              next hunseen =>
                have hnames : (forall name', name' ∈ seen ->
                    some name' ∉ some name :: given slots members) ↔
                      forall name', name' ∈ seen -> some name' ∉ given slots members := by
                  simp only [List.mem_cons, Option.some.injEq, not_or]
                  exact ⟨fun h name' hmem => (h name' hmem).2,
                    fun h name' hmem => ⟨fun heq => hunseen (heq ▸ hmem), h name' hmem⟩⟩
                simp only [Option.or_eq_none_iff, ih, clean_cons_known hslot,
                  given_cons_known hname, hnames, List.forall_mem_cons]
                tauto

theorem read_named {fields : Fields s a} {o : s} {ending : Option Fault}
    (hparts : Source.parts o = .named members ending) {x : a} :
    fields.read o = .ok x ↔
      ending = none ∧ Clean fields.slots members ∧ fields.assemble (findNamed members) = .ok x := by
  have hfault : namedFault fields.slots ending [] members = none ↔
      ending = none ∧ Clean fields.slots members := by
    rw [namedFault_eq_none_iff]
    exact ⟨fun h => ⟨h.1, h.2.1⟩, fun h => ⟨h.1, h.2, nofun⟩⟩
  unfold read
  rw [hparts]
  simp only
  rw [← and_assoc, ← hfault]
  split
  next f heq =>
    rw [heq]
    exact ⟨nofun, nofun⟩
  next heq =>
    rw [heq]
    exact (and_iff_right rfl).symm

/-!
# What is found
-/

theorem Clean.findNamed_eq_some_iff (h : Clean slots members) {name : String}
    (hname : name ∈ slots.map Slot.name) {x : s} :
    findNamed members name = some x ↔ (some name, x) ∈ members := by
  induction members with
  | nil => exact ⟨nofun, nofun⟩
  | cons m members ih =>
      rcases m with ⟨name', y⟩
      rw [List.mem_cons, Prod.mk.injEq, ← ih h.tail]
      by_cases hsame : some name = name'
      · subst hsame
        have honce := h.once
        rw [given_cons_known hname, List.nodup_cons] at honce
        rw [findNamed_cons_self, findNamed_eq_none hname honce.1, Option.some.injEq]
        grind
      · rw [findNamed_cons_of_ne hsame]
        grind

theorem Clean.perm (h : Clean slots members) (hperm : members.Perm members') :
    Clean slots members' where
  accepts := fun m hm => h.accepts m (hperm.mem_iff.mpr hm)
  once := ((hperm.map Prod.fst).filter _).nodup_iff.mp h.once

theorem Clean.findNamed_perm (h : Clean slots members) (hperm : members.Perm members')
    {name : String} (hname : name ∈ slots.map Slot.name) :
    findNamed members name = findNamed members' name := by
  apply Option.ext
  intro x
  rw [h.findNamed_eq_some_iff hname, (h.perm hperm).findNamed_eq_some_iff hname, hperm.mem_iff]

end Fields
end Record
end CodeSurvey
