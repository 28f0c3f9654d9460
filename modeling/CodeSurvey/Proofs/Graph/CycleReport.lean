import CodeSurvey.Graph.Cycles
import CodeSurvey.Proofs.Graph.Search
import Mathlib.Data.List.Sort
import Mathlib.Data.String.Basic

/-!
# The report of cycles

The search that collects cycles does not stop at the first one.  When it is done, a path
that is on no reported cycle has only led to paths that were done with before it; so a
way that comes back to its start has met a reported cycle.
-/

namespace CodeSurvey
namespace Graph

open Relation

namespace Links

variable {l : Links} {found : Found}

/-!
# What was found
-/

namespace Found

def Covers (found : Found) (path : String) : Prop :=
  exists cycle, cycle ∈ found.cycles ∧ path ∈ cycle

/-- What was found are cycles, each with its modules in order, and no modules twice. -/
structure Sound (l : Links) (found : Found) : Prop where
  isCycle : forall cycle, cycle ∈ found.cycles -> IsCycle l.Leads cycle
  members_eq : found.members = found.cycles.map fun cycle => cycle.mergeSort
  members_nodup : found.members.Nodup

theorem sound_empty (l : Links) : Found.empty.Sound l := by
  constructor
  · intro cycle hcycle
    cases hcycle
  · rfl
  · exact List.nodup_nil

theorem Sound.add (h : found.Sound l) {cycle : List String} (hcycle : IsCycle l.Leads cycle) :
    (found.add cycle).Sound l := by
  unfold Found.add
  simp only
  split
  · exact h
  next hnew =>
    constructor
    · intro known hknown
      cases hknown with
      | head => exact hcycle
      | tail _ hknown => exact h.isCycle known hknown
    · rw [h.members_eq, List.map_cons]
    · apply List.nodup_cons.mpr
      constructor
      · intro hmem
        exact hnew (List.contains_iff_mem.mpr hmem)
      · exact h.members_nodup

theorem covers_add_of_covers {path : String} (cycle : List String)
    (h : found.Covers path) : (found.add cycle).Covers path := by
  unfold Found.add
  simp only
  split
  · exact h
  · rcases h with ⟨known, hknown, hpath⟩
    exact ⟨known, List.mem_cons_of_mem cycle hknown, hpath⟩

/-- A cycle that is not added has the modules of one that was found before. -/
theorem Sound.covers_add (h : found.Sound l) {cycle : List String} {path : String}
    (hpath : path ∈ cycle) : (found.add cycle).Covers path := by
  unfold Found.add
  simp only
  split
  next hknown =>
    rw [List.contains_iff_mem, h.members_eq] at hknown
    rcases List.mem_map.mp hknown with ⟨known, hmem, hsorted⟩
    have hperm : cycle.Perm known := by
      have hcycle := List.mergeSort_perm cycle fun a b => decide (a ≤ b)
      rw [← hsorted] at hcycle
      exact hcycle.symm.trans (List.mergeSort_perm known _)
    exact ⟨known, hmem, hperm.mem_iff.mp hpath⟩
  next => exact ⟨cycle, List.mem_cons_self, hpath⟩

theorem mergeSort_eq_of_mem_iff {a b : List String} (ha : a.Nodup) (hb : b.Nodup)
    (hmem : forall path, path ∈ a ↔ path ∈ b) : a.mergeSort = b.mergeSort := by
  have hperm := (List.perm_ext_iff_of_nodup ha hb).mpr hmem
  have hsorted : a.mergeSort.Perm b.mergeSort :=
    (List.mergeSort_perm a _).trans (hperm.trans (List.mergeSort_perm b _).symm)
  exact hsorted.eq_of_sortedLE List.sortedLE_mergeSort List.sortedLE_mergeSort

theorem Sound.pairwise (h : found.Sound l) :
    found.cycles.Pairwise fun a b => ¬ forall path, path ∈ a ↔ path ∈ b := by
  have hne : found.cycles.Pairwise fun a b => a.mergeSort ≠ b.mergeSort := by
    apply List.pairwise_map.mp
    exact h.members_eq ▸ h.members_nodup
  apply hne.imp_of_mem
  intro a b ha hb hne hmem
  exact hne (mergeSort_eq_of_mem_iff (h.isCycle a ha).nodup (h.isCycle b hb).nodup hmem)

end Found

/-!
# The search

Only the links of paths that are on no cycle found so far have to be settled.  Every
cycle that is found makes them fewer.
-/

def Unreported (l : Links) (found : Found) (a b : String) : Prop :=
  l.Leads a b ∧ ¬ found.Covers a

theorem leads_of_unreported (a b : String) (h : l.Unreported found a b) : l.Leads a b :=
  h.1

/-- What comes of a search that had to come to some paths: it is done with them, and with
all links of paths that are on no cycle. -/
def Collected (l : Links) (before : List String)
    (state : Std.TreeMap String Mark × Found) : Prop :=
  state.2.Sound l ∧ exists finished,
    Searching l (l.Unreported state.2) state.1 finished [] ∧ before ⊆ finished

theorem Collected.weaken {before before' : List String}
    {state : Std.TreeMap String Mark × Found} (hsub : before ⊆ before')
    (h : Collected l before' state) : Collected l before state := by
  rcases h with ⟨hfound, finished, hsearch, hall⟩
  exact ⟨hfound, finished, hsearch, fun _ hmem => hall (hsub hmem)⟩

/-- The next path to try closes a cycle, so the links of the path that leads to it need
not be settled any more. -/
theorem searching_add {marks : Std.TreeMap String Mark} {finished : List String}
    {path dep : String} {rest : List String} {below : List Frame} (hfound : found.Sound l)
    (h : Searching l (l.Unreported found) marks finished (⟨path, dep :: rest⟩ :: below))
    {cycle : List String} (hpath : path ∈ cycle) :
    Searching l (l.Unreported (found.add cycle)) marks finished (⟨path, rest⟩ :: below) := by
  have hfewer : forall a b, l.Unreported (found.add cycle) a b -> l.Unreported found a b := by
    intro a b hab
    exact ⟨hab.1, fun hcovers => hab.2 (Found.covers_add_of_covers cycle hcovers)⟩
  apply (h.mono hfewer).skip
  intro hdep
  exact absurd (hfound.covers_add hpath) hdep.2

theorem mem_closedBy {path dep : String} {rest : List String} {below : List Frame} :
    path ∈ closedBy (⟨path, rest⟩ :: below) dep := by
  unfold closedBy
  rw [List.mem_reverse, List.mem_append]
  by_cases hpath : path = dep
  · exact Or.inr (List.mem_singleton.mpr hpath)
  · apply Or.inl
    simp [hpath]

theorem collected_collectCycles (hl : l.Whole) {marks : Std.TreeMap String Mark}
    {finished : List String} {stack : List Frame} (hfound : found.Sound l)
    (h : Searching l (l.Unreported found) marks finished stack) :
    Collected l (stack.map Frame.path ++ finished) (l.collectCycles marks found stack) := by
  fun_induction collectCycles l marks found stack generalizing finished with
  | case1 marks found => exact ⟨hfound, finished, h, fun _ hmem => hmem⟩
  | case2 marks found path below ih =>
      apply (ih hfound h.pop).weaken
      intro q hq
      rw [List.map_cons, List.cons_append, List.mem_cons, List.mem_append] at hq
      rcases hq with rfl | hbelow | hdone
      · exact List.mem_append_right _ List.mem_cons_self
      · exact List.mem_append_left _ hbelow
      · exact List.mem_append_right _ (List.mem_cons_of_mem path hdone)
  | case3 marks found path dep rest below hmark ih =>
      have hcycle := isCycle_closedBy h.way h.nodup_stack ((h.underway_iff dep).mp hmark)
      exact ih (hfound.add hcycle) (searching_add hfound h mem_closedBy)
  | case4 marks found path dep rest below hmark ih =>
      exact ih hfound (h.skip fun _ => (h.done_iff dep).mp hmark)
  | case5 marks found path dep rest below hmark hnext ih =>
      have hknown := hl.isSome_of_leads path dep (h.way.2.1 dep List.mem_cons_self)
      rw [hnext] at hknown
      cases hknown
  | case6 marks found path dep rest below hmark next hnext ih =>
      apply (ih hfound (h.push hnext hmark rfl (h.way.push leads_of_unreported hnext))).weaken
      intro q hq
      rw [List.map_cons, List.cons_append]
      exact List.mem_cons_of_mem dep hq

theorem collected_collectFrom (hl : l.Whole) {before : List String}
    {state : Std.TreeMap String Mark × Found} {root : String}
    (h : Collected l before state) (hroot : root ∈ l.paths) :
    Collected l (root :: before) (l.collectFrom state root) := by
  rcases h with ⟨hfound, finished, hsearch, hall⟩
  unfold collectFrom
  split
  next hmark =>
    refine ⟨hfound, finished, hsearch, ?_⟩
    intro q hq
    cases hq with
    | head => exact hsearch.mem_finished_of_contains hmark
    | tail _ hq => exact hall hq
  next hmark =>
    have hfree := Std.TreeMap.getElem?_eq_none_of_contains_eq_false
      (Bool.eq_false_iff.mpr hmark)
    have hnext := hl.next?_eq_some hroot
    have hpush := hsearch.push hnext hfree rfl (Way.start leads_of_unreported hnext)
    apply (collected_collectCycles hl hfound hpush).weaken
    intro q hq
    cases hq with
    | head => exact List.mem_cons_self
    | tail _ hq => exact List.mem_cons_of_mem root (hall hq)

theorem collected_foldl_collectFrom (hl : l.Whole) {roots before : List String}
    (hroots : roots ⊆ l.paths) {state : Std.TreeMap String Mark × Found}
    (h : Collected l before state) :
    Collected l (roots ++ before) (roots.foldl l.collectFrom state) := by
  induction roots generalizing before state with
  | nil => exact h
  | cons root roots ih =>
      have hrest := ih (fun _ hmem => hroots (List.mem_cons_of_mem root hmem))
        (collected_collectFrom hl h (hroots List.mem_cons_self))
      apply hrest.weaken
      intro q hq
      rw [List.cons_append, List.mem_cons, List.mem_append] at hq
      rw [List.mem_append, List.mem_cons]
      rcases hq with rfl | hq | hq
      · exact Or.inr (Or.inl rfl)
      · exact Or.inl hq
      · exact Or.inr (Or.inr hq)

theorem Collected.acyclic {state : Std.TreeMap String Mark × Found}
    (h : Collected l l.paths state) : Acyclic (l.Unreported state.2) := by
  rcases h with ⟨_, finished, hsearch, hall⟩
  intro path hself
  have hpath : path ∈ l.paths := by
    rcases TransGen.head'_iff.mp hself with ⟨next, hnext, _⟩
    exact mem_paths_of_leads hnext.1
  exact hsearch.settled.not_transGen_self hsearch.nodup_finished (hall hpath) hself

/-- A path that leads back to itself has a cycle in the report through which it leads. -/
theorem Collected.exists_covers {state : Std.TreeMap String Mark × Found}
    (h : Collected l l.paths state) {path : String} (hself : TransGen l.Leads path path) :
    exists q, state.2.Covers q ∧ Connected l.Leads path q :=
  exists_connected_of_transGen_self hself (h.acyclic path)

theorem collected_paths (hl : l.Whole) :
    Collected l l.paths (l.paths.foldl l.collectFrom (∅, Found.empty)) := by
  have hstart : Collected l [] (∅, Found.empty) :=
    ⟨Found.sound_empty l, [], Searching.empty l _, List.Subset.refl []⟩
  have h := collected_foldl_collectFrom hl (List.Subset.refl l.paths) hstart
  rwa [List.append_nil] at h

/-- The cycles of a report, no two of the same modules, one at least in every component
that has a cycle. -/
theorem cycles_spec (hl : l.Whole) :
    (forall cycle, cycle ∈ l.cycles -> IsCycle l.Leads cycle) ∧
      l.cycles.Pairwise (fun a b => ¬ forall path, path ∈ a ↔ path ∈ b) ∧
      forall path, TransGen l.Leads path path ->
        exists cycle, cycle ∈ l.cycles ∧
          forall q, q ∈ cycle -> Connected l.Leads path q := by
  have h := collected_paths hl
  unfold cycles
  refine ⟨?_, ?_, ?_⟩
  · intro cycle hcycle
    exact h.1.isCycle cycle (List.mem_reverse.mp hcycle)
  · apply List.pairwise_reverse.mpr
    apply h.1.pairwise.imp
    intro a b hne hmem
    exact hne fun path => (hmem path).symm
  · intro path hself
    rcases h.exists_covers hself with ⟨q, ⟨cycle, hcycle, hq⟩, hconnected⟩
    refine ⟨cycle, List.mem_reverse.mpr hcycle, ?_⟩
    intro p hp
    exact hconnected.trans ((h.1.isCycle cycle hcycle).connected hq hp)

end Links

namespace ModuleGraph

theorem Mirrored.circularDependencies_spec {g : ModuleGraph} (hg : g.Mirrored) :
    (forall cycle, cycle ∈ g.circularDependencies -> IsCycle g.DependsOn cycle) ∧
      g.circularDependencies.Pairwise (fun a b => ¬ forall path, path ∈ a ↔ path ∈ b) ∧
      forall path, TransGen g.DependsOn path path ->
        exists cycle, cycle ∈ g.circularDependencies ∧
          forall q, q ∈ cycle -> Connected g.DependsOn path q := by
  have hleads : (g.links Node.dependencies).Leads = g.DependsOn :=
    funext fun a => funext fun b => propext leads_links
  have h := Links.cycles_spec hg.whole_links
  rw [hleads] at h
  exact h

/-- However a graph was edited, its report has cycles only, no two of the same modules, and
one within every component that has a cycle; so it is empty exactly when there is none. -/
theorem circularDependencies_edited (o : Options) (edits : List Edit) :
    let g := edited o edits
    (forall cycle, cycle ∈ g.circularDependencies -> IsCycle g.DependsOn cycle) ∧
      g.circularDependencies.Pairwise (fun a b => ¬ forall path, path ∈ a ↔ path ∈ b) ∧
      (forall path, TransGen g.DependsOn path path ->
        exists cycle, cycle ∈ g.circularDependencies ∧
          forall q, q ∈ cycle -> Connected g.DependsOn path q) ∧
      (g.circularDependencies = [] ↔ Acyclic g.DependsOn) ∧
      (g.detectCircular.hasCircular = true ↔ ¬ Acyclic g.DependsOn) ∧
      g.detectCircular.cycles = g.circularDependencies := by
  intro g
  rcases (mirrored_edited o edits).circularDependencies_spec with
    ⟨hcycle, hdistinct, hcovered⟩
  have hempty : g.circularDependencies = [] ↔ Acyclic g.DependsOn := by
    constructor
    · intro hnone path hself
      rcases hcovered path hself with ⟨cycle, hmem, _⟩
      rw [show (edited o edits).circularDependencies = [] from hnone] at hmem
      cases hmem
    · intro hacyclic
      apply List.eq_nil_iff_forall_not_mem.mpr
      intro cycle hmem
      exact (hcycle cycle hmem).not_acyclic hacyclic
  refine ⟨hcycle, hdistinct, hcovered, hempty, ?_, rfl⟩
  rw [← hempty]
  unfold detectCircular
  rw [Bool.not_eq_true', List.isEmpty_eq_false_iff]

end ModuleGraph
end Graph
end CodeSurvey
