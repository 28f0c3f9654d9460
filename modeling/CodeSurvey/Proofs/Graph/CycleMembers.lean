import CodeSurvey.Proofs.Graph.CycleReport
import Mathlib

/-!
# Modules on reported cycles

The search closes a cycle only with a path that is still on its way.  A module can lie on a
cycle that leads on through modules which the search is done with; then it may be on no
cycle of the report.  But no cycle is missed altogether: each has a module on it that is
reported.
-/

namespace CodeSurvey
namespace Graph

open Relation

theorem IsCycle.transGen_self {r : String -> String -> Prop} {cycle : List String}
    (h : IsCycle r cycle) {path : String} (hpath : path ∈ cycle) : TransGen r path path := by
  cases cycle with
  | nil => cases hpath
  | cons first rest =>
      rcases h.connected hpath List.mem_cons_self with ⟨hthere, hback⟩
      exact TransGen.trans_left (TransGen.trans_right hthere h.transGen_head) hback

theorem IsCycle.restrict {r : String -> String -> Prop} {p : String -> Prop}
    {cycle : List String} (h : IsCycle r cycle) (hall : forall path, path ∈ cycle -> p path) :
    IsCycle (fun a b => r a b ∧ p a) cycle where
  ne_nil := h.ne_nil
  nodup := h.nodup
  chain := by
    apply List.IsChain.imp_of_mem_imp _ h.chain
    intro a b ha _ hab
    exact ⟨hab, hall a ha⟩
  closed := by
    intro first hfirst last hlast
    exact ⟨h.closed first hfirst last hlast, hall last (List.mem_of_getLast? hlast)⟩

namespace Links

variable {l : Links}

theorem exists_mem_cycles (hl : l.Whole) {cycle : List String}
    (hcycle : IsCycle l.Leads cycle) :
    exists path, path ∈ cycle ∧ exists reported, reported ∈ l.cycles ∧ path ∈ reported := by
  have hacyclic := (collected_paths hl).acyclic
  apply Classical.byContradiction
  intro hnone
  -- Then all links of the cycle come from paths that the search has left without a report.
  have hunreported : forall path, path ∈ cycle ->
      ¬ (l.paths.foldl l.collectFrom (∅, Found.empty)).2.Covers path := by
    rintro path hpath ⟨reported, hreported, hmem⟩
    exact hnone ⟨path, hpath, reported, List.mem_reverse.mpr hreported, hmem⟩
  exact (hcycle.restrict hunreported).not_acyclic hacyclic

end Links

namespace ModuleGraph

theorem mem_modulesInCycles {g : ModuleGraph} {path : String} :
    path ∈ g.modulesInCycles ↔
      exists cycle, cycle ∈ g.circularDependencies ∧ path ∈ cycle := by
  unfold modulesInCycles
  rw [← PathSet.mem_iff, PathSet.mem_ofList, List.mem_flatten]

theorem Mirrored.exists_mem_modulesInCycles {g : ModuleGraph} (hg : g.Mirrored)
    {cycle : List String} (hcycle : IsCycle g.DependsOn cycle) :
    exists path, path ∈ cycle ∧ path ∈ g.modulesInCycles := by
  have hleads : (g.links Node.dependencies).Leads = g.DependsOn :=
    funext fun a => funext fun b => propext leads_links
  rw [← hleads] at hcycle
  rcases Links.exists_mem_cycles hg.whole_links hcycle with ⟨path, hpath, hreported⟩
  exact ⟨path, hpath, mem_modulesInCycles.mpr hreported⟩

/-- However a graph was edited, the modules on its reported cycles are listed in order and
once each.  They all lead back to themselves, and every cycle goes through one of them; so
there are none exactly when there is no cycle. -/
theorem modulesInCycles_edited (o : Options) (edits : List Edit) :
    let g := edited o edits
    g.modulesInCycles.Pairwise (· < ·) ∧
      (forall path, path ∈ g.modulesInCycles ↔
        exists cycle, cycle ∈ g.circularDependencies ∧ path ∈ cycle) ∧
      (forall path, path ∈ g.modulesInCycles -> TransGen g.DependsOn path path) ∧
      (forall cycle, IsCycle g.DependsOn cycle ->
        exists path, path ∈ cycle ∧ path ∈ g.modulesInCycles) ∧
      (g.modulesInCycles = [] ↔ Acyclic g.DependsOn) := by
  intro g
  have hg : g.Mirrored := mirrored_edited o edits
  rcases hg.circularDependencies_spec with ⟨hcycle, _, hcovered⟩
  have hself : forall path, path ∈ g.modulesInCycles -> TransGen g.DependsOn path path := by
    intro path hpath
    rcases mem_modulesInCycles.mp hpath with ⟨cycle, hmem, hpath⟩
    exact (hcycle cycle hmem).transGen_self hpath
  refine ⟨(PathSet.ofList _).ascending, fun _ => mem_modulesInCycles, hself, ?_, ?_⟩
  · exact fun cycle hcycle => hg.exists_mem_modulesInCycles hcycle
  · constructor
    · intro hnone path hpath
      rcases hcovered path hpath with ⟨cycle, hmem, _⟩
      rcases List.exists_mem_of_ne_nil cycle (hcycle cycle hmem).ne_nil with ⟨q, hq⟩
      have hq : q ∈ g.modulesInCycles := mem_modulesInCycles.mpr ⟨cycle, hmem, hq⟩
      rw [hnone] at hq
      cases hq
    · intro hacyclic
      apply List.eq_nil_iff_forall_not_mem.mpr
      intro path hpath
      exact hacyclic path (hself path hpath)

/-- The cycles `a b` and `a c b`: when the search comes to `c`, it is done with `b`. -/
def sharedLink : ModuleGraph :=
  let link := fun target => { Import.ofSource target with resolved := some target }
  edited { trackTypeImports := true, includeInstalled := false }
    [.add ⟨0, 0⟩ "a" [link "b", link "c"] [], .add ⟨0, 0⟩ "b" [link "a"] [],
      .add ⟨0, 0⟩ "c" [link "b"] []]

/-- A module that leads back to itself need not be on a reported cycle. -/
theorem not_mem_modulesInCycles :
    TransGen sharedLink.DependsOn "c" "c" ∧ sharedLink.modulesInCycles = ["a", "b"] ∧
      ¬ forall (o : Options) (edits : List Edit) (path : String),
        path ∈ (edited o edits).modulesInCycles ↔
          TransGen (edited o edits).DependsOn path path := by
  have hcycles : sharedLink.circularDependencies = [["a", "b"]] := by cbv
  have hreported : sharedLink.modulesInCycles = ["a", "b"] := by
    unfold modulesInCycles
    rw [hcycles]
    decide +kernel
  have hedges : sharedLink.edges.map (fun e => (e.source, e.target)) =
      [("a", "b"), ("a", "c"), ("b", "a"), ("c", "b")] := by decide +kernel
  have hlink : forall a b, (a, b) ∈ [("a", "b"), ("a", "c"), ("b", "a"), ("c", "b")] ->
      sharedLink.DependsOn a b := by
    intro a b hmem
    rw [← hedges] at hmem
    rcases List.mem_map.mp hmem with ⟨e, he, heq⟩
    cases heq
    exact ((mirrored_edited _ _).hasEdge_iff _ _).mp ⟨e, he, rfl, rfl⟩
  have hround : TransGen sharedLink.DependsOn "c" "c" :=
    TransGen.head (hlink "c" "b" (by decide)) (TransGen.head (hlink "b" "a" (by decide))
      (TransGen.single (hlink "a" "c" (by decide))))
  refine ⟨hround, hreported, ?_⟩
  intro hexact
  have hmem : "c" ∈ sharedLink.modulesInCycles := (hexact _ _ "c").mpr hround
  rw [hreported] at hmem
  exact absurd hmem (by decide)

end ModuleGraph
end Graph
end CodeSurvey
