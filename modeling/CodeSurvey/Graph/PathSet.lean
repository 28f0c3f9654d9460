/-!
# Sets of paths

A set of paths is the ascending list of its members, so that equal sets are equal
values and every listing of a set is in order.
-/

namespace CodeSurvey
namespace Graph

structure PathSet where
  toList : List String
  ascending : toList.Pairwise (· < ·)
deriving DecidableEq

namespace PathSet

instance : Repr PathSet where
  reprPrec s n := reprPrec s.toList n

instance : Membership String PathSet where
  mem s path := path ∈ s.toList

instance (path : String) (s : PathSet) : Decidable (path ∈ s) :=
  inferInstanceAs (Decidable (path ∈ s.toList))

theorem mem_iff {path : String} {s : PathSet} : path ∈ s ↔ path ∈ s.toList :=
  Iff.rfl

def empty : PathSet :=
  { toList := [], ascending := .nil }

instance : EmptyCollection PathSet where
  emptyCollection := empty

instance : Inhabited PathSet where
  default := empty

def isEmpty (s : PathSet) : Bool :=
  s.toList.isEmpty

def size (s : PathSet) : Nat :=
  s.toList.length

/-!
# Adding a member

A new member goes in front of the first one that is greater.
-/

def insertAscending (path : String) : List String -> List String
  | [] => [path]
  | p :: ps =>
      if path < p then path :: p :: ps
      else if path = p then p :: ps
      else p :: insertAscending path ps

theorem mem_insertAscending {path q : String} {ps : List String} :
    q ∈ insertAscending path ps ↔ q = path ∨ q ∈ ps := by
  induction ps with
  | nil => simp [insertAscending]
  | cons p ps ih =>
      simp only [insertAscending]
      split
      · simp
      · split
        · rename_i h
          simp [h]
        · simp only [List.mem_cons, ih]
          constructor
          · rintro (h | h | h) <;> simp [h]
          · rintro (h | h | h) <;> simp [h]

theorem lt_of_not_lt_of_ne {a b : String} (hlt : ¬ a < b) (hne : a ≠ b) : b < a :=
  Decidable.byContradiction fun h =>
    hne (String.le_antisymm (String.not_lt.mp h) (String.not_lt.mp hlt))

theorem ascending_insertAscending {path : String} {ps : List String}
    (h : ps.Pairwise (· < ·)) : (insertAscending path ps).Pairwise (· < ·) := by
  induction ps with
  | nil => simp [insertAscending]
  | cons p ps ih =>
      have hp := List.pairwise_cons.mp h
      simp only [insertAscending]
      split
      · rename_i hlt
        refine List.pairwise_cons.mpr ⟨?_, h⟩
        intro q hq
        rcases List.mem_cons.mp hq with hq | hq
        · exact hq ▸ hlt
        · exact String.lt_trans hlt (hp.1 q hq)
      · split
        · exact h
        · rename_i hlt hne
          refine List.pairwise_cons.mpr ⟨?_, ih hp.2⟩
          intro q hq
          rcases mem_insertAscending.mp hq with hq | hq
          · exact hq ▸ lt_of_not_lt_of_ne hlt hne
          · exact hp.1 q hq

def insert (s : PathSet) (path : String) : PathSet :=
  { toList := insertAscending path s.toList
    ascending := ascending_insertAscending s.ascending }

@[simp] theorem mem_insert {path q : String} {s : PathSet} :
    q ∈ s.insert path ↔ q = path ∨ q ∈ s :=
  mem_insertAscending

/-!
# Removing a member
-/

def erase (s : PathSet) (path : String) : PathSet :=
  { toList := s.toList.filter (· ≠ path)
    ascending := s.ascending.filter _ }

@[simp] theorem mem_erase {path q : String} {s : PathSet} :
    q ∈ s.erase path ↔ q ∈ s ∧ q ≠ path := by
  simp [mem_iff, erase]

def ofList (paths : List String) : PathSet :=
  paths.foldl insert empty

end PathSet
end Graph
end CodeSurvey
