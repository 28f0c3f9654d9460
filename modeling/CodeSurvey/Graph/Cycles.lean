import CodeSurvey.Graph.Links

/-!
# Import cycles

The same search that orders the modules reports cycles when it goes on after closing
one.  Every module is visited once; each time a dependency is still on the way, the
part of the way from there on is a cycle, and it is reported unless a cycle of the
same modules was reported before.
-/

namespace CodeSurvey
namespace Graph
namespace Links

/-- The cycles found so far, the last one first, with the modules of each in order. -/
structure Found where
  cycles : List (List String)
  members : List (List String)
deriving DecidableEq, Repr

namespace Found

def empty : Found :=
  { cycles := [], members := [] }

/-- Add a cycle, unless one of the same modules is known. -/
def add (f : Found) (cycle : List String) : Found :=
  let sorted := cycle.mergeSort
  if f.members.contains sorted then f
  else { cycles := cycle :: f.cycles, members := sorted :: f.members }

end Found

/-- Visit everything behind the paths on the way, collecting cycles. -/
def collectCycles (l : Links) (marks : Std.TreeMap String Mark) (found : Found) :
    List Frame -> Std.TreeMap String Mark × Found
  | [] => (marks, found)
  | ⟨path, []⟩ :: below => l.collectCycles (marks.insert path .done) found below
  | ⟨path, dep :: rest⟩ :: below =>
      match _hmark : marks[dep]? with
      | some .underway =>
          l.collectCycles marks (found.add (closedBy (⟨path, dep :: rest⟩ :: below) dep))
            (⟨path, rest⟩ :: below)
      | some .done => l.collectCycles marks found (⟨path, rest⟩ :: below)
      | none =>
          match _hnext : l.next? dep with
          | none => l.collectCycles marks found (⟨path, rest⟩ :: below)
          | some next =>
              l.collectCycles (marks.insert dep .underway) found
                (⟨dep, next⟩ :: ⟨path, rest⟩ :: below)
termination_by stack => (l.unmarked marks, work stack)
decreasing_by
  · rcases Nat.lt_or_eq_of_le (l.unmarked_insert_le marks path .done) with h | h
    · exact Prod.Lex.left _ _ h
    · rw [h]
      exact Prod.Lex.right _ (by simp [work])
  · exact Prod.Lex.right _ (by simp [work])
  · exact Prod.Lex.right _ (by simp [work])
  · exact Prod.Lex.right _ (by simp [work])
  · refine Prod.Lex.left _ _ (l.unmarked_insert_lt Mark.underway ?_ ?_)
    · simp [_hnext]
    · exact contains_eq_false _hmark

def collectFrom (l : Links) (state : Std.TreeMap String Mark × Found) (root : String) :
    Std.TreeMap String Mark × Found :=
  if state.1.contains root then state
  else l.collectCycles (state.1.insert root .underway) state.2 [⟨root, l.next root⟩]

def cycles (l : Links) : List (List String) :=
  (l.paths.foldl l.collectFrom (∅, Found.empty)).2.cycles.reverse

end Links

structure CycleReport where
  hasCircular : Bool
  cycles : List (List String)
deriving DecidableEq, Repr

namespace ModuleGraph

/-- Import cycles, one for every set of modules. -/
def circularDependencies (g : ModuleGraph) : List (List String) :=
  (g.links Node.dependencies).cycles

def circularLog (g : ModuleGraph) : List Log.Entry :=
  match g.circularDependencies with
  | [] => []
  | cycles => [.debug "circular dependencies found" [("cycles", .nat cycles.length)]]

def detectCircular (g : ModuleGraph) : CycleReport :=
  let cycles := g.circularDependencies
  { hasCircular := !cycles.isEmpty, cycles }

def modulesInCycles (g : ModuleGraph) : List String :=
  (PathSet.ofList g.circularDependencies.flatten).toList

end ModuleGraph
end Graph
end CodeSurvey
