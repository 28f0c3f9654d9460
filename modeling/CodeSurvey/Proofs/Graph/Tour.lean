import CodeSurvey.Proofs.Graph.DependencyOrder
import CodeSurvey.Proofs.Graph.Reaching

/-!
# Recursive searches

A depth-first search is most plainly written as a recursion: a path is visited, then
everything that follows it is searched, and then the search is done with the path.  The
searches of a graph keep a stack instead.  What is on the stack is what the recursion has
still to do, so they come to the same paths in the same order.
-/

namespace CodeSurvey
namespace Graph

open Relation

/-- The paths that a search has visited, and those that it is done with, each in the order
in which it came to that. -/
structure Tour where
  visited : List String
  finished : List String

namespace Tour

def start : Tour :=
  { visited := [], finished := [] }

def visit (t : Tour) (path : String) : Tour :=
  { t with visited := t.visited ++ [path] }

def finish (t : Tour) (path : String) : Tour :=
  { t with finished := t.finished ++ [path] }

theorem mem_visited_visit {t : Tour} {path q : String} :
    q ∈ (t.visit path).visited ↔ q = path ∨ q ∈ t.visited := by
  unfold visit
  rw [List.mem_append, List.mem_singleton, or_comm]

end Tour

namespace Links

/-!
# The recursion

The listed paths that a tour has not come to bound how often it goes deeper.
-/

def unvisited (l : Links) (t : Tour) : Nat :=
  (l.paths.filter fun path => path ∉ t.visited).length

theorem unvisited_le (l : Links) {t t' : Tour} (hsub : t.visited ⊆ t'.visited) :
    l.unvisited t' ≤ l.unvisited t := by
  apply length_filter_le
  intro path hpath
  have hnot : path ∉ t'.visited := of_decide_eq_true hpath
  exact decide_eq_true fun hmem => hnot (hsub hmem)

theorem unvisited_visit_lt (l : Links) {t : Tour} {path : String} (hpath : path ∈ l.paths)
    (hnew : path ∉ t.visited) : l.unvisited (t.visit path) < l.unvisited t := by
  apply length_filter_lt (x := path) _ hpath
  · exact decide_eq_false fun hnot => hnot (Tour.mem_visited_visit.mpr (Or.inl rfl))
  · exact decide_eq_true hnew
  · intro q hq
    have hnot : q ∉ (t.visit path).visited := of_decide_eq_true hq
    exact decide_eq_true fun hmem => hnot (Tour.mem_visited_visit.mpr (Or.inr hmem))

theorem next_eq_nil {l : Links} {path : String} (hpath : path ∉ l.paths) :
    l.next path = [] := by
  unfold next
  cases hnext : l.next? path with
  | none => rfl
  | some next => exact absurd (l.known path (by rw [hnext]; rfl)) hpath

theorem decreases_of_le {m n j k : Nat} (hle : m ≤ n) (hlt : j < k) :
    Prod.Lex (· < ·) (· < ·) (m, j) (n, k) := by
  rcases Nat.lt_or_eq_of_le hle with h | h
  · exact Prod.Lex.left _ _ h
  · rw [h]
    exact Prod.Lex.right _ hlt

/-- Search paths, one after the other: each that was not visited before is visited, then the
paths that follow it are searched in their order, and then the search is done with it.  What
was visited stays visited. -/
def extend (l : Links) (t : Tour) : List String -> { t' : Tour // t.visited ⊆ t'.visited }
  | [] => ⟨t, List.Subset.refl _⟩
  | path :: rest =>
      if _hvisited : path ∈ t.visited then l.extend t rest
      else
        let inside := l.extend (t.visit path) (l.next path)
        let after := l.extend (inside.1.finish path) rest
        ⟨after.1, fun _ hmem => after.2 (inside.2 (List.mem_append_left _ hmem))⟩
termination_by paths => (l.unvisited t, paths.length)
decreasing_by
  · exact Prod.Lex.right _ (by simp)
  · by_cases hpath : path ∈ l.paths
    · exact Prod.Lex.left _ _ (l.unvisited_visit_lt hpath _hvisited)
    · rw [next_eq_nil hpath]
      exact decreases_of_le (l.unvisited_le (List.subset_append_left _ _)) (by simp)
  · exact decreases_of_le
      (l.unvisited_le fun _ hmem => inside.2 (List.mem_append_left _ hmem)) (by simp)

/-- The recursive search of paths that goes on from a tour. -/
def tour (l : Links) (t : Tour) (paths : List String) : Tour :=
  (l.extend t paths).1

variable {l : Links} {t u : Tour} {path : String} {paths rest : List String}

theorem visited_subset_tour (l : Links) (t : Tour) (paths : List String) :
    t.visited ⊆ (l.tour t paths).visited :=
  (l.extend t paths).2

theorem tour_nil : l.tour t [] = t := by
  unfold tour
  rw [extend]

theorem tour_cons_of_mem (hpath : path ∈ t.visited) :
    l.tour t (path :: rest) = l.tour t rest := by
  unfold tour
  rw [extend, dif_pos hpath]

theorem tour_cons_of_not_mem (hpath : path ∉ t.visited) :
    l.tour t (path :: rest) =
      l.tour ((l.tour (t.visit path) (l.next path)).finish path) rest := by
  unfold tour
  rw [extend, dif_neg hpath]

/-!
# Laws of the recursion
-/

theorem tour_append (t : Tour) (paths rest : List String) :
    l.tour t (paths ++ rest) = l.tour (l.tour t paths) rest := by
  induction paths generalizing t with
  | nil => rw [List.nil_append, tour_nil]
  | cons path paths ih =>
      rw [List.cons_append]
      by_cases hpath : path ∈ t.visited
      · rw [tour_cons_of_mem hpath, tour_cons_of_mem hpath, ih]
      · rw [tour_cons_of_not_mem hpath, tour_cons_of_not_mem hpath, ih]

/-- Paths that were visited may be left out. -/
theorem tour_filter {keep : String -> Bool}
    (hkeep : forall path, keep path = false -> path ∈ t.visited) (paths : List String) :
    l.tour t (paths.filter keep) = l.tour t paths := by
  induction paths generalizing t with
  | nil => rfl
  | cons path paths ih =>
      cases hpath : keep path with
      | false =>
          rw [List.filter_cons_of_neg (by simp [hpath]), tour_cons_of_mem (hkeep path hpath)]
          exact ih hkeep
      | true =>
          rw [List.filter_cons_of_pos hpath]
          by_cases hvisited : path ∈ t.visited
          · rw [tour_cons_of_mem hvisited, tour_cons_of_mem hvisited]
            exact ih hkeep
          · rw [tour_cons_of_not_mem hvisited, tour_cons_of_not_mem hvisited]
            apply ih
            intro q hq
            exact visited_subset_tour l _ _ (Tour.mem_visited_visit.mpr (Or.inr (hkeep q hq)))

theorem visited_tour_congr (h : t.visited = u.visited) (paths : List String) :
    (l.tour t paths).visited = (l.tour u paths).visited := by
  induction t, paths using extend.induct l generalizing u with
  | case1 t =>
      rw [tour_nil, tour_nil]
      exact h
  | case2 t path rest hvisited ih =>
      rw [tour_cons_of_mem hvisited, tour_cons_of_mem (h ▸ hvisited)]
      exact ih h
  | case3 t path rest hvisited inside ihinside ihafter =>
      rw [tour_cons_of_not_mem hvisited, tour_cons_of_not_mem (h ▸ hvisited)]
      apply ihafter
      apply ihinside
      unfold Tour.visit
      rw [h]

/-- To search what follows a new path is to search it before the rest. -/
theorem visited_tour_cons (hpath : path ∉ t.visited) {keep : String -> Bool}
    (hkeep : forall q, keep q = false -> q ∈ (t.visit path).visited) :
    (l.tour t (path :: rest)).visited =
      (l.tour (t.visit path) ((l.next path).filter keep ++ rest)).visited := by
  have hdone (inside : Tour) : (inside.finish path).visited = inside.visited := rfl
  rw [tour_cons_of_not_mem hpath, tour_append, tour_filter hkeep]
  exact visited_tour_congr (hdone _) rest

theorem next_of_next?_eq_none (hnext : l.next? path = none) : l.next path = [] := by
  unfold next
  rw [hnext]
  rfl

theorem next_of_next?_eq_some {next : List String} (hnext : l.next? path = some next) :
    l.next path = next := by
  unfold Links.next
  rw [hnext]
  rfl

/-- Whatever was visited has a mark, and nothing else has. -/
def Marked (t : Tour) (marks : Std.TreeMap String a) : Prop :=
  forall path, marks.contains path = true ↔ path ∈ t.visited

section Marked

variable {marks : Std.TreeMap String a} {mark : a}

theorem Marked.start : Marked Tour.start (∅ : Std.TreeMap String a) := by
  intro path
  rw [Std.TreeMap.contains_emptyc]
  exact iff_of_false Bool.false_ne_true List.not_mem_nil

theorem Marked.visit (h : Marked t marks) (path : String) :
    Marked (t.visit path) (marks.insert path mark) := by
  intro q
  rw [contains_insert_iff, Tour.mem_visited_visit, h q]

theorem Marked.not_mem (h : Marked t marks) (hmark : ¬ marks.contains path = true) :
    path ∉ t.visited :=
  fun hmem => hmark ((h path).mpr hmem)

end Marked

/-!
# The search for what a path reaches

It visits the paths behind an origin, which has a mark from the start.
-/

theorem visited_tour_visit {origin : String} (marks : Std.TreeMap String Unit)
    (found stack : List String) :
    forall t : Tour, Marked t marks -> t.visited = origin :: found.reverse ->
      (l.tour t stack).visited = origin :: l.visit marks found stack := by
  have hvisit : forall {t : Tour} {found : List String} (path : String),
      t.visited = origin :: found.reverse ->
        (t.visit path).visited = origin :: (path :: found).reverse := by
    intro t found path hfound
    unfold Tour.visit
    rw [hfound, List.cons_append, List.reverse_cons]
  -- The induction is on the loop; the recursion is called with what is on its stack.
  fun_induction visit l marks found stack with
  | case1 marks found =>
      intro t hmarks hfound
      rw [tour_nil]
      exact hfound
  | case2 marks found path stack hmark ih =>
      intro t hmarks hfound
      rw [tour_cons_of_mem ((hmarks path).mp hmark)]
      exact ih t hmarks hfound
  | case3 marks found path stack hmark marked hnext ih =>
      intro t hmarks hfound
      have hnew := hmarks.not_mem hmark
      rw [tour_cons_of_not_mem hnew, next_of_next?_eq_none hnext, tour_nil]
      exact ih ((t.visit path).finish path) (hmarks.visit path) (hvisit path hfound)
  | case4 marks found path stack hmark marked next hnext ih =>
      intro t hmarks hfound
      have hnew := hmarks.not_mem hmark
      have hmarked : Marked (t.visit path) marked := hmarks.visit path
      have hkeep : forall q, (!marked.contains q) = false -> q ∈ (t.visit path).visited := by
        intro q hq
        exact (hmarked q).mp (by simpa using hq)
      simp only [List.unattach_filter, List.unattach_attach] at ih
      rw [visited_tour_cons hnew hkeep, next_of_next?_eq_some hnext]
      exact ih (t.visit path) hmarked (hvisit path hfound)

theorem visited_tour_singleton (l : Links) (path : String) :
    (l.tour .start [path]).visited = path :: l.reached path := by
  have hnew : path ∉ Tour.start.visited := List.not_mem_nil
  rw [tour_cons_of_not_mem hnew, tour_nil]
  unfold reached
  split
  next hnext =>
    rw [next_of_next?_eq_none hnext, tour_nil]
    rfl
  next next hnext =>
    rw [next_of_next?_eq_some hnext]
    exact visited_tour_visit _ [] next (Tour.start.visit path) (Marked.start.visit path) rfl

/-!
# The search for an order

The frames of its way are calls of the recursion that have not come back: what is left to try
is searched, and then the search is done with the path of the frame.
-/

/-- Go on with the calls on the way, the one on top first. -/
def unwind (l : Links) (t : Tour) : List Frame -> Tour
  | [] => t
  | f :: below => l.unwind ((l.tour t f.rest).finish f.path) below

/-- The search has come as far as the tour. -/
structure Keeps (t : Tour) (progress : Progress) : Prop where
  marked : Marked t progress.marks
  finished : t.finished = progress.finished.reverse

section Keeps

variable {marks : Std.TreeMap String Mark} {mark : Mark} {finished : List String}

theorem Keeps.visit (h : Keeps t ⟨marks, finished⟩) (path : String) :
    Keeps (t.visit path) ⟨marks.insert path mark, finished⟩ :=
  ⟨h.marked.visit path, h.finished⟩

theorem Keeps.setMark (h : Keeps t ⟨marks, finished⟩) (hpath : path ∈ t.visited) :
    Keeps t ⟨marks.insert path mark, finished⟩ := by
  refine ⟨?_, h.finished⟩
  intro q
  rw [contains_insert_iff, h.marked q]
  exact or_iff_right_of_imp fun heq => heq ▸ hpath

theorem Keeps.finish (h : Keeps t ⟨marks, finished⟩) (path : String) :
    Keeps (t.finish path) ⟨marks, path :: finished⟩ := by
  refine ⟨h.marked, ?_⟩
  unfold Tour.finish
  rw [h.finished]
  exact List.reverse_cons.symm

theorem Keeps.mem_visited (h : Keeps t ⟨marks, finished⟩) (hmark : marks[path]? = some mark) :
    path ∈ t.visited := by
  apply (h.marked path).mp
  rw [Std.TreeMap.contains_eq_isSome_getElem?, hmark]
  rfl

theorem Keeps.not_mem_visited (h : Keeps t ⟨marks, finished⟩) (hmark : marks[path]? = none) :
    path ∉ t.visited :=
  h.marked.not_mem (Bool.eq_false_iff.mp (contains_eq_false hmark))

end Keeps

theorem keeps_unwind (marks : Std.TreeMap String Mark) (finished : List String)
    (stack : List Frame) :
    forall (t : Tour) (progress : Progress), Keeps t ⟨marks, finished⟩ ->
      stack.map Frame.path ⊆ t.visited -> l.finishAll marks finished stack = .ok progress ->
        Keeps (l.unwind t stack) progress := by
  -- The induction is on the loop; each of its steps is one of the recursion on top of the way.
  fun_induction finishAll l marks finished stack with
  | case1 marks finished =>
      intro t progress hkeeps _ hresult
      cases hresult
      exact hkeeps
  | case2 marks finished path below ih =>
      intro t progress hkeeps hway hresult
      rcases List.cons_subset.mp hway with ⟨hpath, hbelow⟩
      unfold unwind
      rw [tour_nil]
      exact ih (t.finish path) progress ((hkeeps.setMark hpath).finish path) hbelow hresult
  | case3 marks finished path dep rest below hmark ih =>
      intro t progress hkeeps hway hresult
      unfold unwind
      rw [tour_cons_of_mem (hkeeps.mem_visited hmark)]
      exact ih t progress hkeeps hway hresult
  | case4 marks finished path dep rest below hmark =>
      intro t progress hkeeps hway hresult
      cases hresult
  | case5 marks finished path dep rest below hmark hnext ih =>
      intro t progress hkeeps hway hresult
      unfold unwind
      rw [tour_cons_of_not_mem (hkeeps.not_mem_visited hmark), next_of_next?_eq_none hnext,
        tour_nil]
      exact ih ((t.visit dep).finish dep) progress ((hkeeps.visit dep).finish dep)
        (fun _ hmem => Tour.mem_visited_visit.mpr (Or.inr (hway hmem))) hresult
  | case6 marks finished path dep rest below hmark next hnext ih =>
      intro t progress hkeeps hway hresult
      have hway' : dep :: path :: below.map Frame.path ⊆ (t.visit dep).visited :=
        List.cons_subset.mpr ⟨Tour.mem_visited_visit.mpr (Or.inl rfl),
          fun _ hmem => Tour.mem_visited_visit.mpr (Or.inr (hway hmem))⟩
      unfold unwind
      rw [tour_cons_of_not_mem (hkeeps.not_mem_visited hmark), next_of_next?_eq_some hnext]
      exact ih (t.visit dep) progress (hkeeps.visit dep) hway' hresult

theorem Keeps.finishFrom {root : String} {progress progress' : Progress}
    (h : Keeps t progress) (hresult : l.finishFrom progress root = .ok progress') :
    Keeps (l.tour t [root]) progress' := by
  unfold Links.finishFrom at hresult
  split at hresult
  next hmark =>
    cases hresult
    rw [tour_cons_of_mem ((h.marked root).mp hmark), tour_nil]
    exact h
  next hmark =>
    have hway : [root] ⊆ (t.visit root).visited :=
      List.cons_subset.mpr ⟨Tour.mem_visited_visit.mpr (Or.inl rfl), List.nil_subset _⟩
    rw [tour_cons_of_not_mem (h.marked.not_mem hmark), tour_nil]
    exact keeps_unwind _ _ [⟨root, l.next root⟩] _ _ (h.visit root) hway hresult

theorem Keeps.foldlM {roots : List String} {progress progress' : Progress}
    (h : Keeps t progress) (hresult : roots.foldlM l.finishFrom progress = .ok progress') :
    Keeps (l.tour t roots) progress' := by
  induction roots generalizing t progress with
  | nil =>
      cases hresult
      rw [tour_nil]
      exact h
  | cons root roots ih =>
      rw [List.foldlM_cons] at hresult
      cases hroot : l.finishFrom progress root with
      | error e =>
          rw [hroot] at hresult
          cases hresult
      | ok next =>
          rw [hroot] at hresult
          rw [← List.singleton_append, tour_append]
          exact ih (h.finishFrom hroot) hresult

/-- An order lists the paths as the recursion is done with them. -/
theorem finishingOrder_eq_ok {order : List String} (horder : l.finishingOrder = .ok order) :
    order = (l.tour .start l.paths).finished := by
  unfold finishingOrder at horder
  cases hresult : l.paths.foldlM l.finishFrom { marks := ∅, finished := [] } with
  | error e =>
      rw [hresult] at horder
      cases horder
  | ok progress =>
      rw [hresult] at horder
      cases horder
      have hstart : Keeps Tour.start { marks := ∅, finished := [] } := ⟨Marked.start, rfl⟩
      exact (hstart.foldlM hresult).finished.symm

end Links

/-!
# The searches of a graph
-/

namespace ModuleGraph

theorem ascending_paths (g : ModuleGraph) : g.paths.Pairwise (· < ·) := by
  refine Std.TreeMap.ordered_keys.imp ?_
  intro a b hlt
  exact compareOfLessAndEq_eq_lt.mp hlt

theorem ascending_next (g : ModuleGraph) (neighbours : Node -> PathSet) (path : String) :
    ((g.links neighbours).next path).Pairwise (· < ·) := by
  unfold Links.next links
  cases hn : g.nodes[path]? with
  | none =>
      simp only [hn, Option.map_none, Option.getD_none]
      exact List.Pairwise.nil
  | some n =>
      simp only [hn, Option.map_some, Option.getD_some]
      exact (neighbours n).ascending

theorem Mirrored.topologicalOrder_eq_ok_iff {g : ModuleGraph} (hg : g.Mirrored)
    {order : List String} :
    g.topologicalOrder = .ok order ↔ Acyclic g.DependsOn ∧
      order = ((g.links Node.dependencies).tour .start g.paths).finished := by
  have hspec := hg.topologicalOrder_spec
  cases hresult : g.topologicalOrder with
  | ok found =>
      rw [hresult] at hspec
      have hfound : found = ((g.links Node.dependencies).tour .start g.paths).finished :=
        Links.finishingOrder_eq_ok hresult
      rw [Except.ok.injEq, hfound, eq_comm]
      exact (and_iff_right hspec.1).symm
  | error e =>
      cases e with
      | cycleDetected cycle =>
          rw [hresult] at hspec
          exact iff_of_false nofun fun h => hspec.not_acyclic h.1

/-- However a graph was edited: what a module imports, directly or not, comes in the order in
which a recursive search from the module visits it, and what imports a module comes in the
order in which the search the other way does.  If there is no cycle, the order of the modules is
the one in which the recursive search of all modules is done with them.  Modules, and those
that follow a module, are searched in ascending order. -/
theorem recursive_edited (o : Options) (edits : List Edit) :
    let g := edited o edits
    let imports := g.links Node.dependencies
    let importers := g.links Node.dependents
    (forall path, (imports.next path).Pairwise (· < ·) ∧
      forall q, q ∈ imports.next path ↔ g.DependsOn path q) ∧
    (forall path, (importers.next path).Pairwise (· < ·) ∧
      forall q, q ∈ importers.next path ↔ g.DependsOn q path) ∧
    (forall path, (imports.tour .start [Path.normalize path]).visited =
      Path.normalize path :: g.transitiveDependencies path) ∧
    (forall path, (importers.tour .start [Path.normalize path]).visited =
      Path.normalize path :: g.transitiveDependents path) ∧
    g.paths.Pairwise (· < ·) ∧
    (forall path : String, path ∈ g.paths ↔ (g.nodes[path]?).isSome) ∧
    forall order, g.topologicalOrder = .ok order ↔
      Acyclic g.DependsOn ∧ order = (imports.tour .start g.paths).finished := by
  intro g imports importers
  have hg : g.Mirrored := mirrored_edited o edits
  refine ⟨?_, ?_, ?_, ?_, g.ascending_paths, fun _ => mem_paths,
    fun _ => hg.topologicalOrder_eq_ok_iff⟩
  · intro path
    exact ⟨g.ascending_next _ path, fun _ => leads_links⟩
  · intro path
    refine ⟨g.ascending_next _ path, ?_⟩
    intro q
    exact leads_dependents.trans (hg.importedBy_iff q path)
  · intro path
    exact Links.visited_tour_singleton imports (Path.normalize path)
  · intro path
    exact Links.visited_tour_singleton importers (Path.normalize path)

end ModuleGraph
end Graph
end CodeSurvey
