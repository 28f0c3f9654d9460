import CodeSurvey.Graph.Basic

/-!
# Links between modules

A search sees the graph as a finite list of paths with the paths that follow each of
them.  It marks a path when it comes to it, and since only listed paths lead on, the
number of listed paths without a mark bounds how often it goes deeper.
-/

namespace CodeSurvey
namespace Graph

structure Links where
  paths : List String
  next? : String -> Option (List String)
  known : forall path, (next? path).isSome -> path ∈ paths

namespace Links

def next (l : Links) (path : String) : List String :=
  (l.next? path).getD []

/-- How many listed paths have no mark yet. -/
def unmarked (l : Links) (marks : Std.TreeMap String a) : Nat :=
  (l.paths.filter fun path => !marks.contains path).length

theorem length_filter_le {p q : a -> Bool} (xs : List a)
    (h : forall x, p x = true -> q x = true) :
    (xs.filter p).length ≤ (xs.filter q).length := by
  induction xs with
  | nil => simp
  | cons x xs ih =>
      by_cases hp : p x = true
      · simp [hp, h x hp, ih]
      · by_cases hq : q x = true
        · simp [hp, hq]
          omega
        · simp [hp, hq, ih]

theorem length_filter_lt {p q : a -> Bool} {xs : List a} {x : a}
    (h : forall y, p y = true -> q y = true) (hx : x ∈ xs)
    (hp : p x = false) (hq : q x = true) :
    (xs.filter p).length < (xs.filter q).length := by
  induction xs with
  | nil => simp at hx
  | cons y ys ih =>
      rcases List.mem_cons.mp hx with hx | hx
      · subst hx
        have := length_filter_le ys h
        simp [hp, hq]
        omega
      · have := ih hx
        by_cases hpy : p y = true
        · simp [hpy, h y hpy, this]
        · by_cases hqy : q y = true
          · simp [hpy, hqy]
            omega
          · simp [hpy, hqy, this]

theorem unmarked_insert_le (l : Links) (marks : Std.TreeMap String a) (path : String)
    (mark : a) : l.unmarked (marks.insert path mark) ≤ l.unmarked marks := by
  apply length_filter_le
  intro p hp
  simp only [Std.TreeMap.contains_insert, Bool.not_or, Bool.and_eq_true] at hp
  exact hp.2

theorem unmarked_insert_lt (l : Links) {marks : Std.TreeMap String a} {path : String}
    (mark : a) (hknown : (l.next? path).isSome) (hfree : marks.contains path = false) :
    l.unmarked (marks.insert path mark) < l.unmarked marks := by
  apply length_filter_lt (x := path)
  · intro p hp
    simp only [Std.TreeMap.contains_insert, Bool.not_or, Bool.and_eq_true] at hp
    exact hp.2
  · exact l.known path hknown
  · simp
  · simp [hfree]

theorem contains_eq_false {marks : Std.TreeMap String a} {path : String}
    (h : marks[path]? = none) : marks.contains path = false := by
  rw [Std.TreeMap.contains_eq_isSome_getElem?, h, Option.isSome_none]

/-- A path on the way of a search, with the paths behind it that are still to try. -/
structure Frame where
  path : String
  rest : List String
deriving DecidableEq, Repr

def work : List Frame -> Nat
  | [] => 0
  | f :: stack => f.rest.length + 1 + work stack

/-- How far a search has come with a path: it is on the way, or done with. -/
inductive Mark where
  | underway
  | done
deriving DecidableEq, Repr

/-- The part of the way that a path on it closes to a cycle, from that path on. -/
def closedBy (stack : List Frame) (path : String) : List String :=
  (((stack.map Frame.path).takeWhile (· ≠ path)) ++ [path]).reverse

end Links

namespace ModuleGraph

def links (g : ModuleGraph) (neighbours : Node -> PathSet) : Links where
  paths := g.paths
  next? := fun path => g.nodes[path]?.map fun n => (neighbours n).toList
  known := by
    intro path h
    have hmem : path ∈ g.nodes := by
      rw [Option.isSome_map] at h
      simpa using h
    exact Std.TreeMap.mem_keys.mpr hmem

end ModuleGraph
end Graph
end CodeSurvey
