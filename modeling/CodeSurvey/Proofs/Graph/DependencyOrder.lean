import CodeSurvey.Graph.Order
import CodeSurvey.Proofs.Graph.Search

/-!
# The dependency order

The search for an order lists every path behind those it leads on to, unless it closes a
cycle.  So there is an order exactly when there is no cycle.
-/

namespace CodeSurvey
namespace Graph

open Relation

namespace Links

variable {l : Links}

/-- What comes of a search whose way holds some paths and that has listed others. -/
def Outcome (l : Links) (before : List String) : Except OrderError Progress -> Prop
  | .ok progress =>
      Searching l l.Leads progress.marks progress.finished [] ∧ before ⊆ progress.finished
  | .error (.cycleDetected cycle) => IsCycle l.Leads cycle

theorem Outcome.weaken {before before' : List String} {outcome : Except OrderError Progress}
    (hsub : before ⊆ before') (h : Outcome l before' outcome) : Outcome l before outcome := by
  cases outcome with
  | ok progress => exact ⟨h.1, fun _ hmem => h.2 (hsub hmem)⟩
  | error e => exact h

theorem outcome_finishAll (hl : l.Whole) {marks : Std.TreeMap String Mark}
    {finished : List String} {stack : List Frame}
    (h : Searching l l.Leads marks finished stack) :
    Outcome l (stack.map Frame.path ++ finished) (l.finishAll marks finished stack) := by
  fun_induction finishAll l marks finished stack with
  | case1 marks finished => exact ⟨h, fun _ hmem => hmem⟩
  | case2 marks finished path below ih =>
      apply (ih h.pop).weaken
      intro q hq
      rw [List.map_cons, List.cons_append, List.mem_cons, List.mem_append] at hq
      rcases hq with rfl | hbelow | hdone
      · exact List.mem_append_right _ List.mem_cons_self
      · exact List.mem_append_left _ hbelow
      · exact List.mem_append_right _ (List.mem_cons_of_mem path hdone)
  | case3 marks finished path dep rest below hmark ih =>
      exact ih (h.skip fun _ => (h.done_iff dep).mp hmark)
  | case4 marks finished path dep rest below hmark =>
      exact isCycle_closedBy h.way h.nodup_stack ((h.underway_iff dep).mp hmark)
  | case5 marks finished path dep rest below hmark hnext ih =>
      -- Every path that is led on to is known, so the search does not end here.
      have hleads : l.Leads path dep := h.way.2.1 dep List.mem_cons_self
      have hknown := hl.isSome_of_leads path dep hleads
      rw [hnext] at hknown
      cases hknown
  | case6 marks finished path dep rest below hmark next hnext ih =>
      apply (ih (h.push hnext hmark rfl (h.way.push (fun _ _ hlink => hlink) hnext))).weaken
      intro q hq
      rw [List.map_cons, List.cons_append]
      exact List.mem_cons_of_mem dep hq

theorem outcome_finishFrom (hl : l.Whole) {progress : Progress} {root : String}
    (h : Searching l l.Leads progress.marks progress.finished []) (hroot : root ∈ l.paths) :
    Outcome l (root :: progress.finished) (l.finishFrom progress root) := by
  unfold finishFrom
  split
  · next hmark =>
      refine ⟨h, ?_⟩
      intro q hq
      rcases List.mem_cons.mp hq with rfl | hq
      · exact h.mem_finished_of_contains hmark
      · exact hq
  · next hmark =>
      have hfree := Std.TreeMap.getElem?_eq_none_of_contains_eq_false
        (Bool.eq_false_iff.mpr hmark)
      exact outcome_finishAll hl (h.push (hl.next?_eq_some hroot) hfree rfl
        (Way.start (fun _ _ hlink => hlink) (hl.next?_eq_some hroot)))

theorem outcome_foldlM_finishFrom (hl : l.Whole) {roots : List String}
    (hroots : roots ⊆ l.paths) {progress : Progress}
    (h : Searching l l.Leads progress.marks progress.finished []) :
    Outcome l (roots ++ progress.finished) (roots.foldlM l.finishFrom progress) := by
  induction roots generalizing progress with
  | nil => exact ⟨h, fun _ hmem => hmem⟩
  | cons root roots ih =>
      have hfirst := outcome_finishFrom hl h (hroots List.mem_cons_self)
      rw [List.foldlM_cons]
      cases hresult : l.finishFrom progress root with
      | error e =>
          rw [hresult] at hfirst
          exact hfirst
      | ok next =>
          rw [hresult] at hfirst
          have hrest := ih (fun _ hmem => hroots (List.mem_cons_of_mem root hmem)) hfirst.1
          apply hrest.weaken
          intro q hq
          rw [List.cons_append, List.mem_cons, List.mem_append] at hq
          rw [List.mem_append]
          rcases hq with rfl | hroot | hdone
          · exact Or.inr (hfirst.2 List.mem_cons_self)
          · exact Or.inl hroot
          · exact Or.inr (hfirst.2 (List.mem_cons_of_mem root hdone))

/-- The order, or a cycle. -/
theorem finishingOrder_spec (hl : l.Whole) :
    match l.finishingOrder with
    | .ok order =>
        Acyclic l.Leads ∧ order.Perm l.paths ∧ Ordered l.Leads order
    | .error (.cycleDetected cycle) => IsCycle l.Leads cycle := by
  have hempty : Searching l l.Leads (Progress.mk ∅ []).marks (Progress.mk ∅ []).finished [] :=
    Searching.empty l l.Leads
  have h := outcome_foldlM_finishFrom hl (List.Subset.refl l.paths) hempty
  unfold finishingOrder
  cases hresult : l.paths.foldlM l.finishFrom { marks := ∅, finished := [] } with
  | error e =>
      rw [hresult] at h
      exact h
  | ok progress =>
      rw [hresult] at h
      rcases h with ⟨hsearch, hall⟩
      rw [List.append_nil] at hall
      have hmem (path : String) : path ∈ progress.finished ↔ path ∈ l.paths :=
        ⟨fun hpath => hsearch.listed path (Or.inl hpath), fun hpath => hall hpath⟩
      refine ⟨?_, ?_, hsearch.settled.ordered_reverse⟩
      · intro path hself
        have hpath : path ∈ l.paths := by
          rcases TransGen.head'_iff.mp hself with ⟨next, hnext, _⟩
          exact mem_paths_of_leads hnext
        exact hsearch.settled.not_transGen_self hsearch.nodup_finished
          ((hmem path).mpr hpath) hself
      · have hperm := (List.perm_ext_iff_of_nodup hsearch.nodup_finished hl.nodup).mpr hmem
        exact (List.reverse_perm _).trans hperm

end Links

namespace ModuleGraph

theorem Mirrored.topologicalOrder_spec {g : ModuleGraph} (hg : g.Mirrored) :
    match g.topologicalOrder with
    | .ok order =>
        Acyclic g.DependsOn ∧ order.Perm g.paths ∧ Ordered g.DependsOn order
    | .error (.cycleDetected cycle) => IsCycle g.DependsOn cycle := by
  have hleads : (g.links Node.dependencies).Leads = g.DependsOn :=
    funext fun a => funext fun b => propext leads_links
  have h := Links.finishingOrder_spec hg.whole_links
  rw [hleads] at h
  exact h

/-- There is an order of the modules exactly when no module depends on itself, directly
or through others; otherwise there is a cycle to show for it. -/
theorem topologicalOrder_edited (o : Options) (edits : List Edit) :
    ((exists order, (edited o edits).topologicalOrder = .ok order) ↔
      forall path, ¬ TransGen (edited o edits).DependsOn path path) ∧
    (forall order, (edited o edits).topologicalOrder = .ok order ->
      order.Nodup ∧
      (forall path : String, path ∈ order ↔ ((edited o edits).nodes[path]?).isSome) ∧
      forall before path after, order = before ++ path :: after ->
        forall dep, (edited o edits).DependsOn path dep -> dep ∈ before) ∧
    ((¬ exists order, (edited o edits).topologicalOrder = .ok order) ->
      exists cycle, (edited o edits).topologicalOrder = .error (.cycleDetected cycle) ∧
        IsCycle (edited o edits).DependsOn cycle) := by
  have hspec := (mirrored_edited o edits).topologicalOrder_spec
  cases hresult : (edited o edits).topologicalOrder with
  | ok order =>
      rw [hresult] at hspec
      rcases hspec with ⟨hacyclic, hperm, hordered⟩
      refine ⟨iff_of_true ⟨order, rfl⟩ hacyclic, ?_, fun hnone => absurd ⟨order, rfl⟩ hnone⟩
      intro found hfound
      cases hfound
      refine ⟨hperm.nodup_iff.mpr Std.TreeMap.nodup_keys, ?_, hordered⟩
      intro path
      rw [hperm.mem_iff, mem_paths]
  | error e =>
      cases e with
      | cycleDetected cycle =>
          rw [hresult] at hspec
          refine ⟨iff_of_false (fun ⟨_, horder⟩ => nomatch horder) hspec.not_acyclic,
            (fun _ horder => nomatch horder), ?_⟩
          intro _
          exact ⟨cycle, rfl, hspec⟩

end ModuleGraph
end Graph
end CodeSurvey
