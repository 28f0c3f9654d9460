import CodeSurvey.Proofs.Graph.Lookup
import CodeSurvey.Proofs.Graph.NormalPath

/-!
# The mirrored views of a graph

An import is recorded in the dependencies of the importing module, in the dependents of
the imported one, and as an edge.  These views of one relation are edited separately.
This module shows that every sequence of edits keeps them in agreement, and that every
module stays in step with the imports that were stored with it.
-/

namespace CodeSurvey
namespace Graph

inductive Edit where
  | add (now : Time.Instant) (path : String) (imports : List Import) (exports : List Export)
  | remove (path : String)
  | clear
deriving DecidableEq, Repr

namespace ModuleGraph

/-- Removing an unknown module changes nothing. -/
def edit (g : ModuleGraph) : Edit -> ModuleGraph
  | .add now path imports exports => g.add now path imports exports
  | .remove path => (g.remove? path).getD g
  | .clear => g.clear

/-- The graph after some changes of the empty one. -/
def edited (o : Options) (edits : List Edit) : ModuleGraph :=
  edits.foldl edit (empty o)

/-!
# Three views of one relation
-/

def DependsOn (g : ModuleGraph) (a b : String) : Prop :=
  exists n, g.nodes[a]? = some n ∧ b ∈ n.dependencies

def ImportedBy (g : ModuleGraph) (b a : String) : Prop :=
  exists n, g.nodes[b]? = some n ∧ a ∈ n.dependents

def HasEdge (g : ModuleGraph) (a b : String) : Prop :=
  exists e, e ∈ g.edges ∧ e.source = a ∧ e.target = b

/-- The edges that leave a module, in the order in which they were recorded. -/
def edgesFrom (g : ModuleGraph) (path : String) : List Edge :=
  g.edges.filter fun e => e.source = path

end ModuleGraph

namespace Options

/-- The filter of imports, said without the function that decides it. -/
structure Passes (o : Options) (i : Import) : Prop where
  kind : o.trackTypeImports = false -> i.kind ≠ .typeOnly
  target : o.includeInstalled = false -> forall path, i.resolved = some path ->
    "node_modules".toList ∉ Path.segments (Path.normalize path).toList

theorem passes_of_accepts {o : Options} {i : Import} (h : o.accepts i = true) :
    o.Passes i := by
  unfold accepts at h
  rw [Bool.and_eq_true, Bool.or_eq_true, decide_eq_true_iff] at h
  constructor
  · intro htrack
    exact h.1.resolve_left (by rw [htrack]; exact Bool.false_ne_true)
  · intro hinstalled path hpath hmem
    have htarget := h.2
    rw [hpath, acceptsTarget, hinstalled, Bool.false_or, Bool.not_eq_true'] at htarget
    have hinst : Path.isInstalled (Path.normalize path) = true :=
      List.any_eq_true.mpr ⟨_, hmem, decide_eq_true rfl⟩
    exact Bool.noConfusion (htarget.symm.trans hinst)

end Options

namespace Node

/-- What holds of the module that a graph has at a path. -/
structure Sound (g : ModuleGraph) (path : String) (n : Node) : Prop where
  path_eq : n.path = path
  normal : Path.normalize path = path
  passes : forall i, i ∈ n.imports -> g.options.Passes i
  /-- The edges of a module come from a part of its imports, in their order. -/
  recorded : ((g.edgesFrom path).map Edge.via).Sublist n.imports
  analyzed_iff : n.analyzed = true ↔ n.analyzedAt.isSome = true
  placeholder : n.analyzed = false ->
    n.imports = [] ∧ n.exports = [] ∧ n.dependencies = ∅

end Node

namespace ModuleGraph

/-- The views of a graph agree. -/
structure Mirrored (g : ModuleGraph) : Prop where
  sound : forall (path : String) (n : Node), g.nodes[path]? = some n -> n.Sound g path
  importedBy_iff : forall a b, g.ImportedBy b a ↔ g.DependsOn a b
  hasEdge_iff : forall a b, g.HasEdge a b ↔ g.DependsOn a b
  /-- An edge leads to the module that its import was resolved to. -/
  resolved : forall e, e ∈ g.edges ->
    exists path, e.via.resolved = some path ∧ Path.normalize path = e.target


theorem sound_relink {g g' : ModuleGraph} {path : String} {n : Node} {deps dependents : PathSet}
    (h : n.Sound g path) (hoptions : g'.options = g.options)
    (hedges : (g'.edgesFrom path).Sublist (g.edgesFrom path))
    (hdeps : n.dependencies = ∅ -> deps = ∅) :
    ({ n with dependencies := deps, dependents } : Node).Sound g' path := by
  constructor
  · exact h.path_eq
  · exact h.normal
  · intro i hi
    exact hoptions ▸ h.passes i hi
  · exact (hedges.map Edge.via).trans h.recorded
  · exact h.analyzed_iff
  · intro hanalyzed
    have hplace := h.placeholder hanalyzed
    exact ⟨hplace.1, hplace.2.1, hdeps hplace.2.2⟩

theorem mirrored_empty (o : Options) : (empty o).Mirrored := by
  have hnone : forall k : String, (empty o).nodes[k]? = none :=
    fun _ => Std.TreeMap.getElem?_emptyc
  constructor
  · intro path n hn
    exact nomatch (hnone path).symm.trans hn
  · intro a b
    constructor
    · rintro ⟨n, hn, _⟩
      exact nomatch (hnone b).symm.trans hn
    · rintro ⟨n, hn, _⟩
      exact nomatch (hnone a).symm.trans hn
  · intro a b
    constructor
    · rintro ⟨e, he, _⟩
      cases he
    · rintro ⟨n, hn, _⟩
      exact nomatch (hnone a).symm.trans hn
  · intro e he
    cases he

/-!
# Taking back the edges of a module

A module without dependencies has no edges to take back, and no module lists it among
its dependents; so nothing has to be changed for it.
-/

theorem dropDependent_of_not_mem {path : String} {n : Node} (h : path ∉ n.dependents) :
    dropDependent path n = n := by
  unfold dropDependent
  rw [PathSet.erase_eq_self h]

theorem dropDependency_of_not_mem {path : String} {n : Node} (h : path ∉ n.dependencies) :
    dropDependency path n = n := by
  unfold dropDependency
  rw [PathSet.erase_eq_self h]

@[simp] theorem options_unlinkOutgoing (g : ModuleGraph) (path : String) :
    (g.unlinkOutgoing path).options = g.options := by
  unfold unlinkOutgoing
  split
  · rfl
  · split <;> rfl

theorem Mirrored.edgesFrom_eq_nil {g : ModuleGraph} (h : g.Mirrored) {path : String}
    (hpath : g.nodes[path]? = none) : g.edgesFrom path = [] := by
  unfold edgesFrom
  apply List.filter_eq_nil_iff.mpr
  intro e he hsource
  rcases (h.hasEdge_iff path e.target).mp ⟨e, he, of_decide_eq_true hsource, rfl⟩ with
    ⟨n, hn, _⟩
  exact nomatch hpath.symm.trans hn

theorem Mirrored.dropDependent_eq_self {g : ModuleGraph} (h : g.Mirrored) {a b : String}
    {n : Node} (hn : g.nodes[b]? = some n) (hab : ¬ g.DependsOn a b) :
    dropDependent a n = n :=
  dropDependent_of_not_mem fun hmem => hab ((h.importedBy_iff a b).mp ⟨n, hn, hmem⟩)

theorem Mirrored.dropDependency_eq_self {g : ModuleGraph} (h : g.Mirrored) {a b : String}
    {n : Node} (hn : g.nodes[a]? = some n) (hab : ¬ g.ImportedBy b a) :
    dropDependency b n = n :=
  dropDependency_of_not_mem fun hmem => hab ((h.importedBy_iff a b).mpr ⟨n, hn, hmem⟩)

theorem not_dependsOn_of_getElem?_eq_none {g : ModuleGraph} {a b : String}
    (h : g.nodes[a]? = none) : ¬ g.DependsOn a b :=
  fun ⟨_, hn, _⟩ => nomatch h.symm.trans hn

theorem not_importedBy_of_getElem?_eq_none {g : ModuleGraph} {a b : String}
    (h : g.nodes[b]? = none) : ¬ g.ImportedBy b a :=
  fun ⟨_, hn, _⟩ => nomatch h.symm.trans hn

theorem dependsOn_iff {g : ModuleGraph} {a b : String} {n : Node}
    (hn : g.nodes[a]? = some n) : g.DependsOn a b ↔ b ∈ n.dependencies := by
  constructor
  · rintro ⟨m, hm, hb⟩
    exact Option.some.inj (hn.symm.trans hm) ▸ hb
  · intro hb
    exact ⟨n, hn, hb⟩

theorem importedBy_iff_mem {g : ModuleGraph} {a b : String} {n : Node}
    (hn : g.nodes[b]? = some n) : g.ImportedBy b a ↔ a ∈ n.dependents := by
  constructor
  · rintro ⟨m, hm, ha⟩
    exact Option.some.inj (hn.symm.trans hm) ▸ ha
  · intro ha
    exact ⟨n, hn, ha⟩

theorem Mirrored.getElem?_unlinkOutgoing {g : ModuleGraph} (h : g.Mirrored)
    (path k : String) :
    (g.unlinkOutgoing path).nodes[k]? = g.nodes[k]?.map (dropDependent path) := by
  have hsame (hdep : ¬ g.DependsOn path k) :
      g.nodes[k]? = g.nodes[k]?.map (dropDependent path) := by
    cases hk : g.nodes[k]? with
    | none => rfl
    | some m => rw [Option.map_some, h.dropDependent_eq_self hk hdep]
  unfold unlinkOutgoing
  split
  · next hn => exact hsame (not_dependsOn_of_getElem?_eq_none hn)
  · next n hn =>
      split
      · next hempty =>
          apply hsame
          rw [dependsOn_iff hn]
          exact PathSet.isEmpty_iff.mp hempty k
      · apply getElem?_updateAll_toList
        intro m hm hk
        exact h.dropDependent_eq_self hm (mt (dependsOn_iff hn).mp hk)

theorem Mirrored.edges_unlinkOutgoing {g : ModuleGraph} (h : g.Mirrored) (path : String) :
    (g.unlinkOutgoing path).edges = g.edges.filter fun e => e.source ≠ path := by
  have hall (hdep : forall b, ¬ g.DependsOn path b) :
      g.edges = g.edges.filter fun e => e.source ≠ path := by
    apply Eq.symm
    apply List.filter_eq_self.mpr
    intro e he
    apply decide_eq_true
    intro hsource
    exact hdep e.target ((h.hasEdge_iff path e.target).mp ⟨e, he, hsource, rfl⟩)
  unfold unlinkOutgoing
  split
  · next hn => exact hall fun b => not_dependsOn_of_getElem?_eq_none hn
  · next n hn =>
      split
      · next hempty =>
          apply hall
          intro b
          rw [dependsOn_iff hn]
          exact PathSet.isEmpty_iff.mp hempty b
      · rfl

end ModuleGraph
end Graph
end CodeSurvey
