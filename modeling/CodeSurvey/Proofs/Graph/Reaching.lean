import CodeSurvey.Graph.Reach
import CodeSurvey.Proofs.Graph.Search

/-!
# What a path reaches

The stack of the search may hold a path several times, and a path gets its mark only when its
turn comes.  Links may lead back to the origin, which has a mark from the start.  What is
found in the end are the paths that are reached over one or more links, without the origin;
and in a mirrored graph the two directions of the search are dual.
-/

namespace CodeSurvey
namespace Graph

open Relation

namespace Links

variable {l : Links} {origin : String} {marks : Std.TreeMap String Unit}
  {found stack : List String}

theorem contains_insert_iff {marks : Std.TreeMap String a} {mark : a} {path q : String} :
    (marks.insert path mark).contains q = true ↔ q = path ∨ marks.contains q = true := by
  rw [Std.TreeMap.contains_insert, Bool.or_eq_true, beq_iff_eq,
    Std.LawfulEqOrd.compare_eq_iff_eq, eq_comm]

/-!
# What the search keeps
-/

/-- The origin and the found paths have a mark, and whatever a path with a mark leads on to
has one too or is still to visit. -/
structure Visiting (l : Links) (origin : String) (marks : Std.TreeMap String Unit)
    (found stack : List String) : Prop where
  nodup : found.Nodup
  not_mem : origin ∉ found
  contains_iff : forall path, marks.contains path = true ↔ path = origin ∨ path ∈ found
  reached : forall path, path ∈ found ∨ path ∈ stack -> TransGen l.Leads origin path
  covered : forall a b, marks.contains a = true -> l.Leads a b ->
    marks.contains b = true ∨ b ∈ stack

namespace Visiting

theorem start {next : List String} (hnext : l.next? origin = some next) :
    Visiting l origin (Std.TreeMap.empty.insert origin ()) [] next := by
  let marks : Std.TreeMap String Unit := Std.TreeMap.empty.insert origin ()
  have hmarked : forall path, marks.contains path = true ↔ path = origin := by
    intro path
    have hempty : (Std.TreeMap.empty : Std.TreeMap String Unit).contains path = false :=
      Std.TreeMap.contains_emptyc
    rw [contains_insert_iff, hempty]
    exact or_iff_left Bool.false_ne_true
  constructor
  case nodup => exact List.nodup_nil
  case not_mem => exact List.not_mem_nil
  case contains_iff =>
    intro path
    exact (hmarked path).trans (or_iff_left List.not_mem_nil).symm
  case reached =>
    intro path hpath
    have hmem := hpath.resolve_left List.not_mem_nil
    exact TransGen.single ((leads_iff_mem hnext).mpr hmem)
  case covered =>
    intro a b ha hab
    cases (hmarked a).mp ha
    exact Or.inr ((leads_iff_mem hnext).mp hab)

theorem skip {path : String} (h : Visiting l origin marks found (path :: stack))
    (hmark : marks.contains path = true) : Visiting l origin marks found stack := by
  constructor
  case nodup => exact h.nodup
  case not_mem => exact h.not_mem
  case contains_iff => exact h.contains_iff
  case reached =>
    intro q hq
    exact h.reached q (hq.imp_right fun hmem => List.mem_cons_of_mem path hmem)
  case covered =>
    intro a b ha hab
    cases h.covered a b ha hab with
    | inl hb => exact Or.inl hb
    | inr hstack =>
        cases List.mem_cons.mp hstack with
        | inl heq => exact Or.inl (heq ▸ hmark)
        | inr hmem => exact Or.inr hmem

/-- The next path has no mark: it is found, and those behind it without a mark are still to
visit. -/
theorem find {path : String} (h : Visiting l origin marks found (path :: stack))
    (hmark : marks.contains path = false) :
    Visiting l origin (marks.insert path ()) (path :: found)
      ((l.next path).filter (fun p => !(marks.insert path ()).contains p) ++ stack) := by
  have hfresh : ¬ (path = origin ∨ path ∈ found) := by
    rw [← h.contains_iff, hmark]
    exact Bool.false_ne_true
  have hpath : TransGen l.Leads origin path := h.reached path (Or.inr List.mem_cons_self)
  constructor
  case nodup => exact List.nodup_cons.mpr ⟨fun hmem => hfresh (Or.inr hmem), h.nodup⟩
  case not_mem =>
    intro hmem
    cases List.mem_cons.mp hmem with
    | inl heq => exact hfresh (Or.inl heq.symm)
    | inr hfound => exact h.not_mem hfound
  case contains_iff =>
    intro q
    rw [contains_insert_iff, h.contains_iff, List.mem_cons, or_left_comm]
  case reached =>
    rintro q (hq | hq)
    · cases List.mem_cons.mp hq with
      | inl heq => exact heq ▸ hpath
      | inr hfound => exact h.reached q (Or.inl hfound)
    · cases List.mem_append.mp hq with
      | inl hnext => exact hpath.tail (List.mem_filter.mp hnext).1
      | inr hstack => exact h.reached q (Or.inr (List.mem_cons_of_mem path hstack))
  case covered =>
    intro a b ha hab
    cases hb : (marks.insert path ()).contains b with
    | true => exact Or.inl rfl
    | false =>
        right
        rw [List.mem_append, List.mem_filter, hb]
        cases contains_insert_iff.mp ha with
        | inl heq => exact Or.inl ⟨heq ▸ hab, rfl⟩
        | inr hmarked =>
            -- A path with a mark leads on to marked paths and to the stack, and `b` is not
            -- the path at the front of it.
            have hold : ¬ (b = path ∨ marks.contains b = true) := by
              rw [← contains_insert_iff, hb]
              exact Bool.false_ne_true
            have hstack := (h.covered a b hmarked hab).resolve_left fun h => hold (Or.inr h)
            exact Or.inr ((List.mem_cons.mp hstack).resolve_left fun h => hold (Or.inl h))

/-- When nothing is left to visit, all paths behind the origin have a mark. -/
theorem contains_of_transGen (h : Visiting l origin marks found []) {path : String}
    (hpath : TransGen l.Leads origin path) : marks.contains path = true := by
  have hstep : forall a b, marks.contains a = true -> l.Leads a b ->
      marks.contains b = true :=
    fun a b ha hab => (h.covered a b ha hab).resolve_right List.not_mem_nil
  induction hpath with
  | single hab => exact hstep _ _ ((h.contains_iff origin).mpr (Or.inl rfl)) hab
  | tail _ hab ih => exact hstep _ _ ih hab

end Visiting

/-!
# What is found
-/

/-- The paths behind an origin, each once and without the origin. -/
def Behind (l : Links) (origin : String) (paths : List String) : Prop :=
  paths.Nodup ∧ forall path, path ∈ paths ↔ path ≠ origin ∧ TransGen l.Leads origin path

theorem behind_visit (h : Visiting l origin marks found stack) :
    Behind l origin (l.visit marks found stack) := by
  fun_induction visit l marks found stack with
  | case1 marks found =>
      refine ⟨List.nodup_reverse.mpr h.nodup, ?_⟩
      intro path
      rw [List.mem_reverse]
      constructor
      · intro hpath
        exact ⟨fun heq => h.not_mem (heq ▸ hpath), h.reached path (Or.inl hpath)⟩
      · rintro ⟨hne, hpath⟩
        exact ((h.contains_iff path).mp (h.contains_of_transGen hpath)).resolve_left hne
  | case2 marks found path stack hmark ih => exact ih (h.skip hmark)
  | case3 marks found path stack hmark marked hnext ih =>
      have hfound := h.find (Bool.eq_false_iff.mpr hmark)
      unfold next at hfound
      rw [hnext] at hfound
      exact ih hfound
  | case4 marks found path stack hmark marked next hnext ih =>
      have hfound := h.find (Bool.eq_false_iff.mpr hmark)
      unfold Links.next at hfound
      rw [hnext] at hfound
      simp only [List.unattach_filter, List.unattach_attach] at ih
      exact ih hfound

theorem behind_reached (l : Links) (origin : String) : Behind l origin (l.reached origin) := by
  unfold reached
  split
  next hnone =>
    refine ⟨List.nodup_nil, ?_⟩
    intro path
    apply iff_of_false List.not_mem_nil
    rintro ⟨_, hpath⟩
    rcases TransGen.head'_iff.mp hpath with ⟨q, hq, _⟩
    unfold Leads next at hq
    rw [hnone] at hq
    cases hq
  next next hnext => exact behind_visit (Visiting.start hnext)

end Links

/-!
# Both directions of a graph
-/

namespace ModuleGraph

theorem leads_dependents {g : ModuleGraph} {a b : String} :
    (g.links Node.dependents).Leads b a ↔ g.ImportedBy b a := by
  unfold Links.Leads Links.next links
  cases hn : g.nodes[b]? with
  | none =>
      simp only [hn, Option.map_none, Option.getD_none]
      exact iff_of_false List.not_mem_nil (not_importedBy_of_getElem?_eq_none hn)
  | some n =>
      simp only [hn, Option.map_some, Option.getD_some]
      rw [importedBy_iff_mem hn]
      exact PathSet.mem_iff.symm

variable {g : ModuleGraph}

theorem nodup_transitiveDependencies (g : ModuleGraph) (path : String) :
    (g.transitiveDependencies path).Nodup :=
  (Links.behind_reached _ _).1

theorem nodup_transitiveDependents (g : ModuleGraph) (path : String) :
    (g.transitiveDependents path).Nodup :=
  (Links.behind_reached _ _).1

theorem mem_transitiveDependencies {path q : String} :
    q ∈ g.transitiveDependencies path ↔
      q ≠ Path.normalize path ∧ TransGen g.DependsOn (Path.normalize path) q := by
  have hleads : (g.links Node.dependencies).Leads = g.DependsOn :=
    funext fun a => funext fun b => propext leads_links
  rw [← hleads]
  exact (Links.behind_reached _ _).2 q

theorem Mirrored.mem_transitiveDependents (hg : g.Mirrored) {path q : String} :
    q ∈ g.transitiveDependents path ↔
      q ≠ Path.normalize path ∧ TransGen g.DependsOn q (Path.normalize path) := by
  have hleads : (g.links Node.dependents).Leads = Function.swap g.DependsOn := by
    funext b a
    exact propext (leads_dependents.trans (hg.importedBy_iff a b))
  rw [← transGen_swap, ← hleads]
  exact (Links.behind_reached _ _).2 q

theorem Mirrored.isSome_of_transGen (hg : g.Mirrored) {a b : String}
    (h : TransGen g.DependsOn a b) : (g.nodes[a]?).isSome ∧ (g.nodes[b]?).isSome := by
  rcases TransGen.head'_iff.mp h with ⟨_, hfirst, _⟩
  rcases TransGen.tail'_iff.mp h with ⟨_, _, hlast⟩
  exact ⟨hfirst.left, hg.dependsOn_right hlast⟩

/-- However a graph was edited, and in every spelling of a path: everything that a module
imports, directly or not, is listed once each, without the module itself, and so is
everything that imports it; an unknown path has neither.  One module is listed for another
one in one direction exactly when the other one is listed for it in the other direction. -/
theorem transitive_edited (o : Options) (edits : List Edit) :
    let g := edited o edits
    (forall path, (g.transitiveDependencies path).Nodup ∧
      forall q, q ∈ g.transitiveDependencies path ↔ (g.nodes[q]?).isSome ∧
        q ≠ Path.normalize path ∧ TransGen g.DependsOn (Path.normalize path) q) ∧
    (forall path, (g.transitiveDependents path).Nodup ∧
      forall q, q ∈ g.transitiveDependents path ↔ (g.nodes[q]?).isSome ∧
        q ≠ Path.normalize path ∧ TransGen g.DependsOn q (Path.normalize path)) ∧
    (forall path, g.contains path = false ->
      g.transitiveDependencies path = [] ∧ g.transitiveDependents path = []) ∧
    forall path q, Path.normalize path ≠ Path.normalize q ->
      (Path.normalize q ∈ g.transitiveDependencies path ↔
        Path.normalize path ∈ g.transitiveDependents q) := by
  intro g
  have hg : g.Mirrored := mirrored_edited o edits
  refine ⟨?_, ?_, ?_, ?_⟩
  · intro path
    refine ⟨g.nodup_transitiveDependencies path, ?_⟩
    intro q
    rw [mem_transitiveDependencies]
    exact ⟨fun h => ⟨(hg.isSome_of_transGen h.2).2, h⟩, fun h => h.2⟩
  · intro path
    refine ⟨g.nodup_transitiveDependents path, ?_⟩
    intro q
    rw [hg.mem_transitiveDependents]
    exact ⟨fun h => ⟨(hg.isSome_of_transGen h.2).1, h⟩, fun h => h.2⟩
  · intro path hunknown
    have hnone : ¬ (g.nodes[Path.normalize path]?).isSome := Bool.eq_false_iff.mp hunknown
    constructor
    · apply List.eq_nil_iff_forall_not_mem.mpr
      intro q hq
      exact hnone (hg.isSome_of_transGen (mem_transitiveDependencies.mp hq).2).1
    · apply List.eq_nil_iff_forall_not_mem.mpr
      intro q hq
      exact hnone (hg.isSome_of_transGen (hg.mem_transitiveDependents.mp hq).2).2
  · intro path q hne
    rw [mem_transitiveDependencies, hg.mem_transitiveDependents]
    exact ⟨fun h => ⟨hne, h.2⟩, fun h => ⟨hne.symm, h.2⟩⟩

end ModuleGraph
end Graph
end CodeSurvey
