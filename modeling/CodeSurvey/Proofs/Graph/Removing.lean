import CodeSurvey.Proofs.Graph.Mirror

/-!
# Removing a module

Removing a module takes it out of the links of all other modules, in all views at once,
and leaves every other link as it is.
-/

namespace CodeSurvey
namespace Graph

namespace ModuleGraph

section Removing

variable {g g' : ModuleGraph} {path : String}

def forget (path : String) (n : Node) : Node :=
  dropDependent path (dropDependency path n)

theorem remove?_eq_none (hpath : g.nodes[Path.normalize path]? = none) :
    g.remove? path = none := by
  unfold remove?
  simp only [hpath]

theorem exists_of_remove? (h : g.remove? path = some g') :
    exists n, g.nodes[Path.normalize path]? = some n := by
  cases hn : g.nodes[Path.normalize path]? with
  | none => exact nomatch (remove?_eq_none hn).symm.trans h
  | some n => exact ⟨n, rfl⟩

theorem options_remove? (h : g.remove? path = some g') : g'.options = g.options := by
  rcases exists_of_remove? h with ⟨n, hn⟩
  unfold remove? at h
  simp only [hn, Option.some.injEq] at h
  exact h ▸ rfl

theorem edges_remove? (h : g.remove? path = some g') :
    g'.edges = g.edges.filter fun e =>
      e.source ≠ Path.normalize path && e.target ≠ Path.normalize path := by
  rcases exists_of_remove? h with ⟨n, hn⟩
  unfold remove? at h
  simp only [hn, Option.some.injEq] at h
  exact h ▸ rfl

theorem Mirrored.getElem?_remove? (hg : g.Mirrored) (h : g.remove? path = some g')
    (k : String) :
    g'.nodes[k]? =
      if k = Path.normalize path then none
      else g.nodes[k]?.map (forget (Path.normalize path)) := by
  rcases exists_of_remove? h with ⟨n, hn⟩
  have hnodes : g'.nodes =
      updateAll
        (updateAll (g.nodes.erase (Path.normalize path)) n.dependents.toList
          (dropDependency (Path.normalize path)))
        n.dependencies.toList (dropDependent (Path.normalize path)) := by
    unfold remove? at h
    simp only [hn, Option.some.injEq] at h
    exact h ▸ rfl
  have herase := getElem?_erase_eq g.nodes (Path.normalize path) k
  by_cases hk : k = Path.normalize path
  · rw [if_pos hk] at herase
    rw [hnodes, if_pos hk, getElem?_updateAll (PathSet.nodup_toList _),
      getElem?_updateAll (PathSet.nodup_toList _), herase]
    simp
  · rw [if_neg hk] at herase
    have hfirst : (updateAll (g.nodes.erase (Path.normalize path)) n.dependents.toList
        (dropDependency (Path.normalize path)))[k]? =
          g.nodes[k]?.map (dropDependency (Path.normalize path)) := by
      rw [← herase]
      apply getElem?_updateAll_toList
      intro m hm hout
      rw [herase] at hm
      exact hg.dropDependency_eq_self hm (mt (importedBy_iff_mem hn).mp hout)
    rw [hnodes, if_neg hk, getElem?_updateAll_toList, hfirst, Option.map_map]
    · rfl
    · intro m hm hout
      rw [hfirst] at hm
      rcases Option.map_eq_some_iff.mp hm with ⟨old, hold, rfl⟩
      apply dropDependent_of_not_mem
      intro hmem
      have hdep : g.DependsOn (Path.normalize path) k :=
        (hg.importedBy_iff _ k).mp ⟨old, hold, hmem⟩
      exact hout ((dependsOn_iff hn).mp hdep)

/-!
# The views after removing
-/

theorem mem_dependencies_forget {source a : String} {n : Node} :
    a ∈ (forget source n).dependencies ↔ a ∈ n.dependencies ∧ a ≠ source :=
  PathSet.mem_erase

theorem mem_dependents_forget {source a : String} {n : Node} :
    a ∈ (forget source n).dependents ↔ a ∈ n.dependents ∧ a ≠ source :=
  PathSet.mem_erase

theorem Mirrored.dependsOn_remove? (hg : g.Mirrored) (h : g.remove? path = some g')
    (a b : String) :
    g'.DependsOn a b ↔
      (a ≠ Path.normalize path ∧ b ≠ Path.normalize path) ∧ g.DependsOn a b := by
  have hlookup := hg.getElem?_remove? h a
  by_cases ha : a = Path.normalize path
  · rw [if_pos ha] at hlookup
    apply iff_of_false (not_dependsOn_of_getElem?_eq_none hlookup)
    exact fun hand => hand.1.1 ha
  · rw [if_neg ha] at hlookup
    cases hn : g.nodes[a]? with
    | none =>
        rw [hn] at hlookup
        apply iff_of_false (not_dependsOn_of_getElem?_eq_none hlookup)
        exact fun hand => not_dependsOn_of_getElem?_eq_none hn hand.2
    | some n =>
        rw [hn, Option.map_some] at hlookup
        rw [dependsOn_iff hlookup, dependsOn_iff hn, mem_dependencies_forget]
        simp only [ne_eq, ha, not_false_eq_true, true_and]
        exact and_comm

theorem Mirrored.importedBy_remove? (hg : g.Mirrored) (h : g.remove? path = some g')
    (a b : String) :
    g'.ImportedBy b a ↔
      (a ≠ Path.normalize path ∧ b ≠ Path.normalize path) ∧ g.ImportedBy b a := by
  have hlookup := hg.getElem?_remove? h b
  by_cases hb : b = Path.normalize path
  · rw [if_pos hb] at hlookup
    exact iff_of_false (not_importedBy_of_getElem?_eq_none hlookup)
      fun hand => hand.1.2 hb
  · rw [if_neg hb] at hlookup
    cases hn : g.nodes[b]? with
    | none =>
        rw [hn] at hlookup
        exact iff_of_false (not_importedBy_of_getElem?_eq_none hlookup)
          fun hand => not_importedBy_of_getElem?_eq_none hn hand.2
    | some n =>
        rw [hn, Option.map_some] at hlookup
        rw [importedBy_iff_mem hlookup, importedBy_iff_mem hn, mem_dependents_forget]
        simp only [ne_eq, hb, not_false_eq_true, and_true]
        exact and_comm

theorem hasEdge_remove? (h : g.remove? path = some g') (a b : String) :
    g'.HasEdge a b ↔
      (a ≠ Path.normalize path ∧ b ≠ Path.normalize path) ∧ g.HasEdge a b := by
  unfold HasEdge
  rw [edges_remove? h]
  simp only [List.mem_filter, Bool.and_eq_true, decide_eq_true_iff]
  constructor
  · rintro ⟨e, ⟨he, hsource, htarget⟩, rfl, rfl⟩
    exact ⟨⟨hsource, htarget⟩, e, he, rfl, rfl⟩
  · rintro ⟨⟨ha, hb⟩, e, he, rfl, rfl⟩
    exact ⟨e, ⟨he, ha, hb⟩, rfl, rfl⟩

/-- Removing a module keeps the views in agreement. -/
theorem Mirrored.remove? (hg : g.Mirrored) (h : g.remove? path = some g') :
    g'.Mirrored := by
  constructor
  · intro k n hn
    rw [hg.getElem?_remove? h] at hn
    split at hn
    · cases hn
    · rcases Option.map_eq_some_iff.mp hn with ⟨m, hm, rfl⟩
      have hedges : (g'.edgesFrom k).Sublist (g.edgesFrom k) := by
        unfold edgesFrom
        rw [edges_remove? h]
        exact List.filter_sublist.filter _
      apply sound_relink (hg.sound k m hm) (options_remove? h) hedges
      intro hempty
      show m.dependencies.erase (Path.normalize path) = ∅
      rw [hempty]
      exact PathSet.erase_eq_self (PathSet.not_mem_empty _)
  · intro a b
    rw [hg.importedBy_remove? h, hg.dependsOn_remove? h, hg.importedBy_iff]
  · intro a b
    rw [hasEdge_remove? h, hg.dependsOn_remove? h, hg.hasEdge_iff]
  · intro e he
    rw [edges_remove? h] at he
    exact hg.resolved e (List.mem_filter.mp he).1

end Removing

end ModuleGraph
end Graph
end CodeSurvey
