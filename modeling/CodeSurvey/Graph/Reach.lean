import CodeSurvey.Graph.Links

/-!
# What a module reaches

All modules that follow a module through one or more links, found by a depth-first
search that keeps the paths still to visit on a stack.
-/

namespace CodeSurvey
namespace Graph
namespace Links

/-- Visit the paths on the stack and everything behind them that has no mark; found
paths are kept in reverse. -/
def visit (l : Links) (marks : Std.TreeMap String Unit) (found : List String) :
    List String -> List String
  | [] => found.reverse
  | path :: stack =>
      if _hmark : marks.contains path then l.visit marks found stack
      else
        let marked := marks.insert path ()
        match _hnext : l.next? path with
        | none => l.visit marked (path :: found) stack
        | some next =>
            l.visit marked (path :: found) (next.filter (fun p => !marked.contains p) ++ stack)
termination_by stack => (l.unmarked marks, stack.length)
decreasing_by
  · exact Prod.Lex.right _ (by simp)
  · rcases Nat.lt_or_eq_of_le (l.unmarked_insert_le marks path ()) with h | h
    · exact Prod.Lex.left _ _ h
    · rw [h]
      exact Prod.Lex.right _ (by simp)
  · refine Prod.Lex.left _ _ (l.unmarked_insert_lt () ?_ ?_)
    · simp [_hnext]
    · exact Bool.eq_false_iff.mpr _hmark

/-- Everything behind a path, without the path itself, in the order of the visit. -/
def reached (l : Links) (path : String) : List String :=
  match l.next? path with
  | none => []
  | some next => l.visit (Std.TreeMap.empty.insert path ()) [] next

end Links

namespace ModuleGraph

/-- Everything that a module imports, directly or not, without the module itself. -/
def transitiveDependencies (g : ModuleGraph) (path : String) : List String :=
  (g.links Node.dependencies).reached (Path.normalize path)

def transitiveDependents (g : ModuleGraph) (path : String) : List String :=
  (g.links Node.dependents).reached (Path.normalize path)

end ModuleGraph
end Graph
end CodeSurvey
