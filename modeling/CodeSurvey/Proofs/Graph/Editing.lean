import CodeSurvey.Proofs.Graph.Adding
import CodeSurvey.Proofs.Graph.Removing

/-!
# Editing a graph

What one edit keeps, every sequence of edits keeps.
-/

namespace CodeSurvey
namespace Graph

namespace ModuleGraph

theorem options_edit (g : ModuleGraph) (e : Edit) : (g.edit e).options = g.options := by
  cases e with
  | add now path imports exports => exact options_add now path imports exports
  | remove path =>
      show ((g.remove? path).getD g).options = g.options
      cases h : g.remove? path with
      | none => rfl
      | some g' => exact options_remove? h
  | clear => rfl

theorem Mirrored.edit {g : ModuleGraph} (hg : g.Mirrored) (e : Edit) :
    (g.edit e).Mirrored := by
  cases e with
  | add now path imports exports => exact hg.add now path imports exports
  | remove path =>
      show ((g.remove? path).getD g).Mirrored
      cases h : g.remove? path with
      | none => exact hg
      | some g' => exact hg.remove? h
  | clear => exact mirrored_empty g.options

theorem options_foldl_edit (g : ModuleGraph) (edits : List Edit) :
    (edits.foldl ModuleGraph.edit g).options = g.options := by
  induction edits generalizing g with
  | nil => rfl
  | cons e edits ih => exact (ih (g.edit e)).trans (g.options_edit e)

theorem mirrored_foldl_edit {g : ModuleGraph} (hg : g.Mirrored) (edits : List Edit) :
    (edits.foldl ModuleGraph.edit g).Mirrored := by
  induction edits generalizing g with
  | nil => exact hg
  | cons e edits ih => exact ih (hg.edit e)

theorem options_edited (o : Options) (edits : List Edit) : (edited o edits).options = o :=
  options_foldl_edit (empty o) edits

theorem mirrored_edited (o : Options) (edits : List Edit) : (edited o edits).Mirrored :=
  mirrored_foldl_edit (mirrored_empty o) edits

theorem DependsOn.left {g : ModuleGraph} {a b : String} (h : g.DependsOn a b) :
    (g.nodes[a]?).isSome := by
  rcases h with ⟨n, hn, _⟩
  rw [hn]
  rfl

theorem Mirrored.dependsOn_right {g : ModuleGraph} (hg : g.Mirrored) {a b : String}
    (h : g.DependsOn a b) : (g.nodes[b]?).isSome := by
  rcases (hg.importedBy_iff a b).mpr h with ⟨n, hn, _⟩
  rw [hn]
  rfl

/-- Dependencies, dependents, edges and stored imports describe one relation, however the
graph was edited. -/
theorem views_agree_edited (o : Options) (edits : List Edit) :
    (forall (path : String) (n : Node), (edited o edits).nodes[path]? = some n ->
      n.path = path ∧ Path.normalize path = path) ∧
    (forall a b, ((edited o edits).DependsOn a b ↔ (edited o edits).ImportedBy b a) ∧
      ((edited o edits).DependsOn a b ->
        ((edited o edits).nodes[a]?).isSome ∧ ((edited o edits).nodes[b]?).isSome)) ∧
    (forall a b, (edited o edits).DependsOn a b ↔ (edited o edits).HasEdge a b) ∧
    (forall (path : String) (n : Node), (edited o edits).nodes[path]? = some n ->
      (((edited o edits).edgesFrom path).map Edge.via).Sublist n.imports ∧
      (forall e, e ∈ (edited o edits).edgesFrom path ->
        exists resolved, e.via.resolved = some resolved ∧
          Path.normalize resolved = e.target) ∧
      forall i, i ∈ n.imports -> o.Passes i) ∧
    (forall (path : String) (n : Node), (edited o edits).nodes[path]? = some n ->
      (n.analyzed = true ↔ n.analyzedAt.isSome = true) ∧
      (n.analyzed = false -> n.imports = [] ∧ n.exports = [] ∧ n.dependencies = ∅)) := by
  have hg := mirrored_edited o edits
  refine ⟨?_, ?_, ?_, ?_, ?_⟩
  · intro path n hn
    exact ⟨(hg.sound path n hn).path_eq, (hg.sound path n hn).normal⟩
  · intro a b
    exact ⟨(hg.importedBy_iff a b).symm, fun h => ⟨h.left, hg.dependsOn_right h⟩⟩
  · intro a b
    exact (hg.hasEdge_iff a b).symm
  · intro path n hn
    refine ⟨(hg.sound path n hn).recorded, ?_, ?_⟩
    · intro e he
      exact hg.resolved e (List.mem_filter.mp he).1
    · intro i hi
      exact options_edited o edits ▸ (hg.sound path n hn).passes i hi
  · intro path n hn
    exact ⟨(hg.sound path n hn).analyzed_iff, (hg.sound path n hn).placeholder⟩

end ModuleGraph
end Graph
end CodeSurvey
