import CodeSurvey.Proofs.Graph.CycleMembers
import CodeSurvey.Proofs.Graph.DependencyOrder

/-!
# The first cycle

The search for an order and the search that collects cycles go the same way through the
graph until a path on the way is met again.  There the first one ends with a cycle, and the
second one goes on, with the same cycle as the first that it has found.
-/

namespace CodeSurvey
namespace Graph

namespace Links

variable {l : Links}

/-!
# What was found stays found
-/

theorem Found.suffix_add (found : Found) (cycle : List String) :
    found.cycles <:+ (found.add cycle).cycles := by
  unfold Found.add
  simp only
  split
  · exact List.suffix_refl _
  · exact List.suffix_cons cycle found.cycles

theorem suffix_collectCycles (l : Links) (marks : Std.TreeMap String Mark) (found : Found)
    (stack : List Frame) :
    found.cycles <:+ (l.collectCycles marks found stack).2.cycles := by
  fun_induction collectCycles l marks found stack with
  | case1 marks found => exact List.suffix_refl _
  | case3 marks found path dep rest below hmark ih =>
      exact (Found.suffix_add found _).trans ih
  | _ => assumption

theorem suffix_foldl_collectFrom (l : Links) (roots : List String)
    (state : Std.TreeMap String Mark × Found) :
    state.2.cycles <:+ (roots.foldl l.collectFrom state).2.cycles := by
  induction roots generalizing state with
  | nil => exact List.suffix_refl _
  | cons root roots ih =>
      have hroot : state.2.cycles <:+ (l.collectFrom state root).2.cycles := by
        unfold collectFrom
        split
        · exact List.suffix_refl _
        · exact suffix_collectCycles l _ _ _
      exact hroot.trans (ih _)

/-!
# One step of the search that goes on
-/

section Steps

variable {marks : Std.TreeMap String Mark} {found : Found} {path dep : String}
  {rest : List String} {below : List Frame}

theorem collectCycles_of_done (hmark : marks[dep]? = some .done) :
    l.collectCycles marks found (⟨path, dep :: rest⟩ :: below) =
      l.collectCycles marks found (⟨path, rest⟩ :: below) := by
  rw [collectCycles]
  split
  next heq => cases heq.symm.trans hmark
  next => rfl
  next heq => cases heq.symm.trans hmark

theorem collectCycles_of_underway (hmark : marks[dep]? = some .underway) :
    l.collectCycles marks found (⟨path, dep :: rest⟩ :: below) =
      l.collectCycles marks (found.add (closedBy (⟨path, dep :: rest⟩ :: below) dep))
        (⟨path, rest⟩ :: below) := by
  rw [collectCycles]
  split
  next => rfl
  next heq => cases heq.symm.trans hmark
  next heq => cases heq.symm.trans hmark

theorem collectCycles_of_next {next : List String} (hmark : marks[dep]? = none)
    (hnext : l.next? dep = some next) :
    l.collectCycles marks found (⟨path, dep :: rest⟩ :: below) =
      l.collectCycles (marks.insert dep .underway) found
        (⟨dep, next⟩ :: ⟨path, rest⟩ :: below) := by
  rw [collectCycles]
  split
  next heq => cases heq.symm.trans hmark
  next heq => cases heq.symm.trans hmark
  next =>
    split
    next heq => cases heq.symm.trans hnext
    next heq =>
      cases heq.symm.trans hnext
      rfl

end Steps

/-!
# Both searches side by side
-/

/-- Where the search for an order has come to its end, the other one has found nothing so far
and has the same marks; where it has met a cycle, this is the first that the other one finds. -/
def Agrees : Except OrderError Progress -> Std.TreeMap String Mark × Found -> Prop
  | .ok progress, state => state = (progress.marks, Found.empty)
  | .error (.cycleDetected cycle), state => [cycle] <:+ state.2.cycles

theorem agrees_finishAll (hl : l.Whole) {marks : Std.TreeMap String Mark}
    {finished : List String} {stack : List Frame}
    (h : Searching l l.Leads marks finished stack) :
    Agrees (l.finishAll marks finished stack) (l.collectCycles marks Found.empty stack) := by
  fun_induction finishAll l marks finished stack with
  | case1 marks finished =>
      rw [collectCycles]
      rfl
  | case2 marks finished path below ih =>
      rw [collectCycles]
      exact ih h.pop
  | case3 marks finished path dep rest below hmark ih =>
      rw [collectCycles_of_done hmark]
      exact ih (h.skip fun _ => (h.done_iff dep).mp hmark)
  | case4 marks finished path dep rest below hmark =>
      rw [collectCycles_of_underway hmark]
      exact suffix_collectCycles l _ (Found.empty.add _) _
  | case5 marks finished path dep rest below hmark hnext ih =>
      -- Here the searches would part: only one of them marks a path that is not known.
      have hknown := hl.isSome_of_leads path dep (h.way.2.1 dep List.mem_cons_self)
      rw [hnext] at hknown
      cases hknown
  | case6 marks finished path dep rest below hmark next hnext ih =>
      rw [collectCycles_of_next hmark hnext]
      exact ih (h.push hnext hmark rfl (h.way.push (fun _ _ hlink => hlink) hnext))

theorem agrees_finishFrom (hl : l.Whole) {progress : Progress} {root : String}
    (h : Searching l l.Leads progress.marks progress.finished []) (hroot : root ∈ l.paths) :
    Agrees (l.finishFrom progress root) (l.collectFrom (progress.marks, Found.empty) root) := by
  unfold finishFrom collectFrom
  simp only
  split
  · rfl
  next hmark =>
    have hfree := Std.TreeMap.getElem?_eq_none_of_contains_eq_false (Bool.eq_false_iff.mpr hmark)
    have hnext := hl.next?_eq_some hroot
    exact agrees_finishAll hl (h.push hnext hfree rfl (Way.start (fun _ _ hlink => hlink) hnext))

theorem agrees_foldlM_finishFrom (hl : l.Whole) {roots : List String}
    (hroots : roots ⊆ l.paths) {progress : Progress}
    (h : Searching l l.Leads progress.marks progress.finished []) :
    Agrees (roots.foldlM l.finishFrom progress)
      (roots.foldl l.collectFrom (progress.marks, Found.empty)) := by
  induction roots generalizing progress with
  | nil => rfl
  | cons root roots ih =>
      have hroot := hroots List.mem_cons_self
      have hagrees := agrees_finishFrom hl h hroot
      have houtcome := outcome_finishFrom hl h hroot
      rw [List.foldlM_cons, List.foldl_cons]
      cases hresult : l.finishFrom progress root with
      | error e =>
          cases e with
          | cycleDetected cycle =>
              rw [hresult] at hagrees
              exact List.IsSuffix.trans hagrees (suffix_foldl_collectFrom l roots _)
      | ok next =>
          rw [hresult] at hagrees houtcome
          have hstate : l.collectFrom (progress.marks, Found.empty) root =
              (next.marks, Found.empty) := hagrees
          rw [hstate]
          exact ih (fun _ hmem => hroots (List.mem_cons_of_mem root hmem)) houtcome.1

/-- The cycle that stands against an order is the first one of the report. -/
theorem finishingOrder_eq_error_iff (hl : l.Whole) {cycle : List String} :
    l.finishingOrder = .error (.cycleDetected cycle) ↔ l.cycles.head? = some cycle := by
  have h : Agrees (l.paths.foldlM l.finishFrom { marks := ∅, finished := [] })
      (l.paths.foldl l.collectFrom (∅, Found.empty)) :=
    agrees_foldlM_finishFrom hl (List.Subset.refl l.paths) (Searching.empty l l.Leads)
  unfold finishingOrder cycles
  rw [List.head?_reverse]
  cases hresult : l.paths.foldlM l.finishFrom { marks := ∅, finished := [] } with
  | ok progress =>
      rw [hresult] at h
      have hstate : l.paths.foldl l.collectFrom (∅, Found.empty) =
          (progress.marks, Found.empty) := h
      rw [hstate]
      exact iff_of_false nofun nofun
  | error e =>
      cases e with
      | cycleDetected first =>
          rw [hresult] at h
          rcases h with ⟨later, hlater⟩
          rw [← hlater, List.getLast?_concat]
          constructor
          · intro heq
            cases heq
            rfl
          · intro heq
            cases heq
            rfl

end Links

namespace ModuleGraph

variable {g : ModuleGraph}

theorem Mirrored.topologicalOrder_eq_error_iff (hg : g.Mirrored) {cycle : List String} :
    g.topologicalOrder = .error (.cycleDetected cycle) ↔
      g.circularDependencies.head? = some cycle :=
  Links.finishingOrder_eq_error_iff hg.whole_links

theorem Mirrored.exists_order_iff (hg : g.Mirrored) :
    (exists order, g.topologicalOrder = .ok order) ↔ g.circularDependencies = [] := by
  cases hcycles : g.circularDependencies with
  | nil =>
      refine iff_of_true ?_ rfl
      cases hresult : g.topologicalOrder with
      | ok order => exact ⟨order, rfl⟩
      | error e =>
          cases e with
          | cycleDetected cycle =>
              have hhead := hg.topologicalOrder_eq_error_iff.mp hresult
              rw [hcycles] at hhead
              cases hhead
  | cons first rest =>
      have hresult : g.topologicalOrder = .error (.cycleDetected first) := by
        rw [hg.topologicalOrder_eq_error_iff, hcycles]
        rfl
      refine iff_of_false ?_ (List.cons_ne_nil first rest)
      rintro ⟨order, horder⟩
      cases hresult.symm.trans horder

theorem hasCircularDependency_eq_false_iff :
    g.hasCircularDependency = false ↔ exists order, g.topologicalOrder = .ok order := by
  unfold hasCircularDependency
  cases g.topologicalOrder with
  | ok order => exact iff_of_true rfl ⟨order, rfl⟩
  | error e => exact iff_of_false nofun nofun

theorem Mirrored.modulesInCycles_eq_nil_iff (hg : g.Mirrored) :
    g.modulesInCycles = [] ↔ g.circularDependencies = [] := by
  rcases hg.circularDependencies_spec with ⟨hcycle, _, _⟩
  rw [List.eq_nil_iff_forall_not_mem, List.eq_nil_iff_forall_not_mem]
  constructor
  · intro hnone cycle hmem
    rcases List.exists_mem_of_ne_nil cycle (hcycle cycle hmem).ne_nil with ⟨path, hpath⟩
    exact hnone path (mem_modulesInCycles.mpr ⟨cycle, hmem, hpath⟩)
  · intro hnone path hpath
    rcases mem_modulesInCycles.mp hpath with ⟨cycle, hmem, _⟩
    exact hnone cycle hmem

/-- However a graph was edited: there is no order exactly when the report of cycles is not
empty, and what stands against it is the first cycle of the report.  So all ways to ask
whether there are cycles have one answer. -/
theorem firstCycle_edited (o : Options) (edits : List Edit) :
    let g := edited o edits
    ((exists order, g.topologicalOrder = .ok order) ↔ g.circularDependencies = []) ∧
    (forall cycle, g.topologicalOrder = .error (.cycleDetected cycle) ↔
      g.circularDependencies.head? = some cycle) ∧
    (g.hasCircularDependency = true ↔ g.circularDependencies ≠ []) ∧
    g.detectCircular.hasCircular = g.hasCircularDependency ∧
    (g.modulesInCycles ≠ [] ↔ g.hasCircularDependency = true) := by
  intro g
  have hg : g.Mirrored := mirrored_edited o edits
  have hcircular : g.hasCircularDependency = true ↔ g.circularDependencies ≠ [] := by
    rw [← Bool.not_eq_false, hasCircularDependency_eq_false_iff, hg.exists_order_iff]
  refine ⟨hg.exists_order_iff, fun _ => hg.topologicalOrder_eq_error_iff, hcircular, ?_, ?_⟩
  · rw [Bool.eq_iff_iff, hcircular]
    unfold detectCircular
    rw [Bool.not_eq_true', List.isEmpty_eq_false_iff]
  · rw [hcircular]
    exact not_congr hg.modulesInCycles_eq_nil_iff

end ModuleGraph
end Graph
end CodeSurvey
