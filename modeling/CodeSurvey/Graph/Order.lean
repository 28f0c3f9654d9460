import CodeSurvey.Graph.Links

/-!
# Dependency order

An order in which every module comes after the modules it depends on exists exactly
when no module depends on itself, directly or through others.  The search follows the
dependencies in ascending order and lists a module when it is done with it; a
dependency that is still on the way closes a cycle.
-/

namespace CodeSurvey
namespace Graph

inductive OrderError where
  /-- Each module depends on the next one, and the last one on the first. -/
  | cycleDetected (cycle : List String)
deriving DecidableEq, Repr

namespace OrderError

def message : OrderError -> String
  | .cycleDetected cycle =>
      let shown :=
        match cycle with
        | [] => ""
        | first :: _ => " -> ".intercalate (cycle ++ [first])
      "Circular dependency detected: " ++ shown

end OrderError

namespace Links

/-- The marks of a search and the paths it is done with, the last one first. -/
structure Progress where
  marks : Std.TreeMap String Mark
  finished : List String

def finishAll (l : Links) (marks : Std.TreeMap String Mark) (finished : List String) :
    List Frame -> Except OrderError Progress
  | [] => .ok { marks, finished }
  | ⟨path, []⟩ :: below =>
      l.finishAll (marks.insert path .done) (path :: finished) below
  | ⟨path, dep :: rest⟩ :: below =>
      match _hmark : marks[dep]? with
      | some .done => l.finishAll marks finished (⟨path, rest⟩ :: below)
      | some .underway =>
          .error (.cycleDetected (closedBy (⟨path, dep :: rest⟩ :: below) dep))
      | none =>
          match _hnext : l.next? dep with
          | none => l.finishAll (marks.insert dep .done) (dep :: finished) (⟨path, rest⟩ :: below)
          | some next =>
              l.finishAll (marks.insert dep .underway) finished
                (⟨dep, next⟩ :: ⟨path, rest⟩ :: below)
termination_by stack => (l.unmarked marks, work stack)
decreasing_by
  · rcases Nat.lt_or_eq_of_le (l.unmarked_insert_le marks path .done) with h | h
    · exact Prod.Lex.left _ _ h
    · rw [h]
      exact Prod.Lex.right _ (by simp [work])
  · exact Prod.Lex.right _ (by simp [work])
  · rcases Nat.lt_or_eq_of_le (l.unmarked_insert_le marks dep .done) with h | h
    · exact Prod.Lex.left _ _ h
    · rw [h]
      exact Prod.Lex.right _ (by simp [work])
  · refine Prod.Lex.left _ _ (l.unmarked_insert_lt Mark.underway ?_ ?_)
    · simp [_hnext]
    · exact contains_eq_false _hmark

def finishFrom (l : Links) (progress : Progress) (root : String) :
    Except OrderError Progress :=
  if progress.marks.contains root then .ok progress
  else
    l.finishAll (progress.marks.insert root .underway) progress.finished
      [⟨root, l.next root⟩]

/-- All paths, each behind the paths that follow it. -/
def finishingOrder (l : Links) : Except OrderError (List String) :=
  (l.paths.foldlM l.finishFrom { marks := ∅, finished := [] }).map fun progress =>
    progress.finished.reverse

end Links

namespace ModuleGraph

def topologicalOrder (g : ModuleGraph) : Except OrderError (List String) :=
  (g.links Node.dependencies).finishingOrder

def hasCircularDependency (g : ModuleGraph) : Bool :=
  match g.topologicalOrder with
  | .ok _ => false
  | .error _ => true

end ModuleGraph
end Graph
end CodeSurvey
