import CodeSurvey.Proofs.Graph.Mirror

/-!
# Adding a module

Adding a module replaces its outgoing links by those of its new imports, in all views at
once, and leaves the links of all other modules as they are.
-/

namespace CodeSurvey
namespace Graph

namespace ModuleGraph

section Adding

variable {g : ModuleGraph} (now : Time.Instant) (path : String) (imports : List Import)
  (exports : List Export)

def kept (g : ModuleGraph) (imports : List Import) : List Import :=
  imports.filter g.options.accepts

/-- The modules that an added module comes to depend on. -/
def targets (g : ModuleGraph) (path : String) (imports : List Import) : List String :=
  (edgesOf (Path.normalize path) (g.kept imports)).map Edge.target

theorem mem_edgesOf {source : String} {imports : List Import} {e : Edge} :
    e ∈ edgesOf source imports ↔
      e.source = source ∧ e.via ∈ imports ∧
        exists resolved, e.via.resolved = some resolved ∧
          Path.normalize resolved = e.target := by
  unfold edgesOf
  rw [List.mem_filterMap]
  constructor
  · rintro ⟨i, hi, he⟩
    rcases Option.map_eq_some_iff.mp he with ⟨resolved, hresolved, rfl⟩
    exact ⟨rfl, hi, resolved, hresolved, rfl⟩
  · rintro ⟨rfl, hi, resolved, hresolved, htarget⟩
    refine ⟨e.via, hi, ?_⟩
    rw [hresolved, Option.map_some, htarget]

theorem map_via_edgesOf_sublist (source : String) (imports : List Import) :
    ((edgesOf source imports).map Edge.via).Sublist imports := by
  induction imports with
  | nil => exact List.Sublist.slnil
  | cons i imports ih =>
      cases hi : i.resolved with
      | none =>
          have hcons : edgesOf source (i :: imports) = edgesOf source imports := by
            simp [edgesOf, hi]
          rw [hcons]
          exact ih.cons i
      | some resolved =>
          have hcons : edgesOf source (i :: imports) =
              { source, target := Path.normalize resolved, via := i } ::
                edgesOf source imports := by
            simp [edgesOf, hi]
          rw [hcons, List.map_cons]
          exact ih.cons_cons i

theorem normalize_of_mem_targets {path t : String} {imports : List Import}
    (ht : t ∈ g.targets path imports) : Path.normalize t = t := by
  rcases List.mem_map.mp ht with ⟨e, he, rfl⟩
  rcases (mem_edgesOf.mp he).2.2 with ⟨resolved, _, htarget⟩
  rw [← htarget, Path.normalize_normalize]

/-!
# The table after adding

The added module, the targets of its imports, and all other modules.
-/

theorem options_add : (g.add now path imports exports).options = g.options :=
  options_unlinkOutgoing g (Path.normalize path)

theorem Mirrored.edges_add (h : g.Mirrored) :
    (g.add now path imports exports).edges =
      (g.edges.filter fun e => e.source ≠ Path.normalize path) ++
        edgesOf (Path.normalize path) (g.kept imports) := by
  rw [← h.edges_unlinkOutgoing]
  rfl

/-- The added module, before it is linked to itself. -/
def addedNode (g : ModuleGraph) (now : Time.Instant) (path : String) (imports : List Import)
    (exports : List Export) : Node :=
  { path := Path.normalize path
    imports := g.kept imports
    exports
    dependencies := .ofList (g.targets path imports)
    dependents :=
      ((g.unlinkOutgoing (Path.normalize path)).nodes[Path.normalize path]?.map
        Node.dependents).getD ∅
    analyzed := true
    analyzedAt := some now }

theorem getElem?_add (g : ModuleGraph) (k : String) :
    (g.add now path imports exports).nodes[k]? =
      if k = Path.normalize path then
        some (if k ∈ g.targets path imports then
          addDependent k (g.addedNode now path imports exports)
          else g.addedNode now path imports exports)
      else if k ∈ g.targets path imports then
        some (addDependent (Path.normalize path)
          (((g.unlinkOutgoing (Path.normalize path)).nodes[k]?).getD (.placeholder k)))
      else (g.unlinkOutgoing (Path.normalize path)).nodes[k]? := by
  simp only [add, addedNode, targets, kept]
  rw [getElem?_updateAll_ofList, getElem?_insert_eq, getElem?_addPlaceholders,
    getElem?_erase_eq]
  simp only [mem_missing, getElem?_erase_eq]
  by_cases ht : k ∈ (edgesOf (Path.normalize path)
      (imports.filter g.options.accepts)).map Edge.target
  · by_cases hk : k = Path.normalize path
    · subst hk
      simp only [ht, if_true, Option.map_some]
    · cases (g.unlinkOutgoing (Path.normalize path)).nodes[k]? <;> simp [-List.mem_map, hk, ht]
  · by_cases hk : k = Path.normalize path
    · subst hk
      simp only [ht, if_true, if_false]
    · simp [-List.mem_map, hk, ht]

/-!
# The views after adding
-/

theorem Mirrored.getElem?_add_of_ne (h : g.Mirrored) {k : String}
    (hk : k ≠ Path.normalize path) :
    (g.add now path imports exports).nodes[k]? =
      if k ∈ g.targets path imports then
        some (addDependent (Path.normalize path)
          (dropDependent (Path.normalize path) ((g.nodes[k]?).getD (.placeholder k))))
      else g.nodes[k]?.map (dropDependent (Path.normalize path)) := by
  rw [getElem?_add, if_neg hk, h.getElem?_unlinkOutgoing]
  cases g.nodes[k]? with
  | none =>
      have hempty : dropDependent (Path.normalize path) (.placeholder k) = .placeholder k :=
        dropDependent_of_not_mem (PathSet.not_mem_empty _)
      simp only [Option.map_none, Option.getD_none, hempty]
  | some n => rfl

theorem Mirrored.dependsOn_add (h : g.Mirrored) (a b : String) :
    (g.add now path imports exports).DependsOn a b ↔
      if a = Path.normalize path then b ∈ g.targets path imports else g.DependsOn a b := by
  by_cases ha : a = Path.normalize path
  · have hself := getElem?_add now path imports exports g a
    rw [if_pos ha] at hself
    rw [if_pos ha, dependsOn_iff hself]
    have hdeps : b ∈ (g.addedNode now path imports exports).dependencies ↔
        b ∈ g.targets path imports := PathSet.mem_ofList
    split
    · exact hdeps
    · exact hdeps
  · rw [if_neg ha]
    have hother := h.getElem?_add_of_ne now path imports exports ha
    split at hother
    · rw [dependsOn_iff hother]
      cases hn : g.nodes[a]? with
      | none =>
          constructor
          · intro hb
            exact absurd hb (PathSet.not_mem_empty b)
          · intro hab
            exact absurd hab (not_dependsOn_of_getElem?_eq_none hn)
      | some n => exact (dependsOn_iff hn).symm
    · cases hn : g.nodes[a]? with
      | none =>
          rw [hn] at hother
          exact iff_of_false (not_dependsOn_of_getElem?_eq_none hother)
            (not_dependsOn_of_getElem?_eq_none hn)
      | some n =>
          rw [hn] at hother
          rw [dependsOn_iff hother, dependsOn_iff hn]
          rfl

theorem mem_addDependent {source a : String} {n : Node} :
    a ∈ (addDependent source n).dependents ↔ a = source ∨ a ∈ n.dependents :=
  PathSet.mem_insert

theorem mem_dropDependent {source a : String} {n : Node} :
    a ∈ (dropDependent source n).dependents ↔ a ∈ n.dependents ∧ a ≠ source :=
  PathSet.mem_erase

theorem Mirrored.mem_dependents_addedNode (h : g.Mirrored) (a : String) :
    a ∈ (g.addedNode now path imports exports).dependents ↔
      g.ImportedBy (Path.normalize path) a ∧ a ≠ Path.normalize path := by
  unfold addedNode
  rw [h.getElem?_unlinkOutgoing]
  cases hn : g.nodes[Path.normalize path]? with
  | none =>
      apply iff_of_false (PathSet.not_mem_empty a)
      exact fun hand => not_importedBy_of_getElem?_eq_none hn hand.1
  | some n =>
      rw [importedBy_iff_mem hn]
      exact mem_dropDependent

theorem Mirrored.importedBy_add_self (h : g.Mirrored) (a : String) :
    (g.add now path imports exports).ImportedBy (Path.normalize path) a ↔
      (a = Path.normalize path ∧ Path.normalize path ∈ g.targets path imports) ∨
        (a ≠ Path.normalize path ∧ g.ImportedBy (Path.normalize path) a) := by
  have hself := getElem?_add now path imports exports g (Path.normalize path)
  have hold := h.mem_dependents_addedNode now path imports exports a
  rw [if_pos rfl] at hself
  rw [importedBy_iff_mem hself]
  split
  · next ht => rw [mem_addDependent, hold, and_iff_left ht, and_comm]
  · next ht => rw [hold, and_comm, or_iff_right fun hand => ht hand.2]

theorem Mirrored.importedBy_add_of_ne (h : g.Mirrored) (a : String) {b : String}
    (hb : b ≠ Path.normalize path) :
    (g.add now path imports exports).ImportedBy b a ↔
      (a = Path.normalize path ∧ b ∈ g.targets path imports) ∨
        (a ≠ Path.normalize path ∧ g.ImportedBy b a) := by
  have hother := h.getElem?_add_of_ne now path imports exports hb
  split at hother
  · next ht =>
      have hold : a ∈ ((g.nodes[b]?).getD (.placeholder b)).dependents ↔
          g.ImportedBy b a := by
        cases hn : g.nodes[b]? with
        | none =>
            exact iff_of_false (PathSet.not_mem_empty a)
              (not_importedBy_of_getElem?_eq_none hn)
        | some n => exact (importedBy_iff_mem hn).symm
      rw [importedBy_iff_mem hother, mem_addDependent, mem_dropDependent, hold,
        and_iff_left ht, and_comm]
  · next ht =>
      rw [or_iff_right fun hand => ht hand.2]
      cases hn : g.nodes[b]? with
      | none =>
          rw [hn] at hother
          exact iff_of_false (not_importedBy_of_getElem?_eq_none hother)
            (fun hand => not_importedBy_of_getElem?_eq_none hn hand.2)
      | some n =>
          rw [hn, Option.map_some] at hother
          rw [importedBy_iff_mem hother, importedBy_iff_mem hn, mem_dropDependent, and_comm]

theorem Mirrored.importedBy_add (h : g.Mirrored) (a b : String) :
    (g.add now path imports exports).ImportedBy b a ↔
      if a = Path.normalize path then b ∈ g.targets path imports else g.ImportedBy b a := by
  have hadd : (g.add now path imports exports).ImportedBy b a ↔
      (a = Path.normalize path ∧ b ∈ g.targets path imports) ∨
        (a ≠ Path.normalize path ∧ g.ImportedBy b a) := by
    by_cases hb : b = Path.normalize path
    · subst hb
      exact h.importedBy_add_self now path imports exports a
    · exact h.importedBy_add_of_ne now path imports exports a hb
  rw [hadd]
  split
  · next ha => simp only [ha, ne_eq, not_true_eq_false, true_and, false_and, or_false]
  · next ha => simp only [ha, ne_eq, not_false_eq_true, true_and, false_and, false_or]

theorem Mirrored.hasEdge_add (h : g.Mirrored) (a b : String) :
    (g.add now path imports exports).HasEdge a b ↔
      if a = Path.normalize path then b ∈ g.targets path imports else g.HasEdge a b := by
  unfold HasEdge
  rw [h.edges_add]
  simp only [List.mem_append, List.mem_filter, decide_eq_true_iff]
  split
  · next ha =>
      constructor
      · rintro ⟨e, hold | hnew, hsource, htarget⟩
        · exact absurd (hsource.trans ha) hold.2
        · exact List.mem_map.mpr ⟨e, hnew, htarget⟩
      · intro ht
        rcases List.mem_map.mp ht with ⟨e, hnew, htarget⟩
        exact ⟨e, Or.inr hnew, (mem_edgesOf.mp hnew).1.trans ha.symm, htarget⟩
  · next ha =>
      constructor
      · rintro ⟨e, hold | hnew, hsource, htarget⟩
        · exact ⟨e, hold.1, hsource, htarget⟩
        · exact absurd (hsource.symm.trans (mem_edgesOf.mp hnew).1) ha
      · rintro ⟨e, he, hsource, htarget⟩
        exact ⟨e, Or.inl ⟨he, fun heq => ha (hsource.symm.trans heq)⟩, hsource, htarget⟩

/-!
# The edges of single modules after adding
-/

theorem Mirrored.edgesFrom_add_self (h : g.Mirrored) :
    (g.add now path imports exports).edgesFrom (Path.normalize path) =
      edgesOf (Path.normalize path) (g.kept imports) := by
  unfold edgesFrom
  rw [h.edges_add, List.filter_append, List.filter_filter]
  have hold : (g.edges.filter fun e =>
      decide (e.source = Path.normalize path) && decide (e.source ≠ Path.normalize path)) =
        [] := by
    apply List.filter_eq_nil_iff.mpr
    intro e _ he
    have hand := Bool.and_eq_true_iff.mp he
    exact of_decide_eq_true hand.2 (of_decide_eq_true hand.1)
  rw [hold, List.nil_append]
  apply List.filter_eq_self.mpr
  intro e he
  exact decide_eq_true (mem_edgesOf.mp he).1

theorem Mirrored.edgesFrom_add_of_ne (h : g.Mirrored) {k : String}
    (hk : k ≠ Path.normalize path) :
    (g.add now path imports exports).edgesFrom k = g.edgesFrom k := by
  unfold edgesFrom
  rw [h.edges_add, List.filter_append, List.filter_filter]
  have hnew : ((edgesOf (Path.normalize path) (g.kept imports)).filter fun e =>
      decide (e.source = k)) = [] := by
    apply List.filter_eq_nil_iff.mpr
    intro e he hsource
    exact hk ((of_decide_eq_true hsource).symm.trans (mem_edgesOf.mp he).1)
  rw [hnew, List.append_nil]
  apply List.filter_congr
  intro e _
  by_cases hsource : e.source = k
  · simp [hsource, hk]
  · simp [hsource]

theorem Mirrored.sound_placeholder (h : g.Mirrored) {k : String} (hk : g.nodes[k]? = none)
    (hnormal : Path.normalize k = k) : (Node.placeholder k).Sound g k := by
  constructor
  · rfl
  · exact hnormal
  · intro i hi
    cases hi
  · rw [h.edgesFrom_eq_nil hk]
    exact List.Sublist.slnil
  · exact Iff.rfl
  · intro _
    exact ⟨rfl, rfl, rfl⟩

theorem Mirrored.sound_addedNode (h : g.Mirrored) (dependents : PathSet) :
    ({ g.addedNode now path imports exports with dependents } : Node).Sound
      (g.add now path imports exports) (Path.normalize path) := by
  constructor
  · rfl
  · exact Path.normalize_normalize path
  · intro i hi
    rw [options_add]
    exact Options.passes_of_accepts (List.mem_filter.mp hi).2
  · rw [h.edgesFrom_add_self]
    exact map_via_edgesOf_sublist _ _
  · exact Iff.rfl
  · intro hanalyzed
    cases hanalyzed

theorem Mirrored.sound_add (h : g.Mirrored) {k : String} {n : Node}
    (hn : (g.add now path imports exports).nodes[k]? = some n) :
    n.Sound (g.add now path imports exports) k := by
  by_cases hk : k = Path.normalize path
  · rw [getElem?_add, if_pos hk] at hn
    subst hk
    split at hn
    · cases hn
      exact h.sound_addedNode now path imports exports _
    · cases hn
      exact h.sound_addedNode now path imports exports _
  · have hedges := h.edgesFrom_add_of_ne now path imports exports hk
    have hoptions := options_add now path imports exports (g := g)
    rw [h.getElem?_add_of_ne now path imports exports hk] at hn
    split at hn
    · next ht =>
        have hold : ((g.nodes[k]?).getD (.placeholder k)).Sound g k := by
          cases hm : g.nodes[k]? with
          | none => exact h.sound_placeholder hm (normalize_of_mem_targets ht)
          | some m => exact h.sound k m hm
        have hdrop : (dropDependent (Path.normalize path)
            ((g.nodes[k]?).getD (.placeholder k))).Sound g k :=
          sound_relink hold rfl (List.Sublist.refl _) id
        cases hn
        exact sound_relink hdrop hoptions (hedges ▸ List.Sublist.refl _) id
    · rcases Option.map_eq_some_iff.mp hn with ⟨m, hm, rfl⟩
      exact sound_relink (h.sound k m hm) hoptions (hedges ▸ List.Sublist.refl _) id

/-- Adding a module keeps the views in agreement. -/
theorem Mirrored.add (h : g.Mirrored) :
    (g.add now path imports exports).Mirrored := by
  constructor
  · intro k n hn
    exact h.sound_add now path imports exports hn
  · intro a b
    rw [h.importedBy_add, h.dependsOn_add]
    split
    · rfl
    · exact h.importedBy_iff a b
  · intro a b
    rw [h.hasEdge_add, h.dependsOn_add]
    split
    · rfl
    · exact h.hasEdge_iff a b
  · intro e he
    rw [h.edges_add, List.mem_append] at he
    rcases he with hold | hnew
    · exact h.resolved e (List.mem_filter.mp hold).1
    · exact (mem_edgesOf.mp hnew).2.2

end Adding
end ModuleGraph
end Graph
end CodeSurvey
