import CodeSurvey.Proofs.Graph.Editing

/-!
# What an edit changes

Adding a module changes the module itself and, of all others, only who imports them.
Removing one takes it out of the links of all others.  For each edit, this module says what
the graph is afterwards, node by node and edge by edge.
-/

namespace CodeSurvey
namespace Graph

theorem Options.accepts_iff_passes {o : Options} {i : Import} :
    o.accepts i = true ↔ o.Passes i := by
  constructor
  · exact passes_of_accepts
  · intro h
    unfold accepts
    rw [Bool.and_eq_true, Bool.or_eq_true, decide_eq_true_iff]
    constructor
    · cases htrack : o.trackTypeImports with
      | true => exact Or.inl rfl
      | false => exact Or.inr (h.kind htrack)
    · unfold acceptsTarget
      split
      next path hpath =>
        cases hinstalled : o.includeInstalled with
        | true => rfl
        | false =>
            have hnot := h.target hinstalled path hpath
            rw [Bool.false_or, Bool.not_eq_true', Path.isInstalled, List.any_eq_false]
            intro part hpart heq
            rw [of_decide_eq_true heq] at hpart
            exact hnot hpart
      next => rfl

/-- One of the imports was resolved to the module. -/
def Resolves (imports : List Import) (target : String) : Prop :=
  exists i resolved, i ∈ imports ∧ i.resolved = some resolved ∧ Path.normalize resolved = target

/-- What a module is after it was added to a graph. -/
structure Node.Added (g : ModuleGraph) (now : Time.Instant) (path : String)
    (imports : List Import) (exports : List Export) (n : Node) : Prop where
  path_eq : n.path = path
  analyzed : n.analyzed = true
  analyzedAt : n.analyzedAt = some now
  /-- The accepted imports, in their order. -/
  imports_eq : n.imports = g.kept imports
  accepted : forall i, i ∈ n.imports ↔ i ∈ imports ∧ g.options.Passes i
  exports_eq : n.exports = exports
  mem_dependencies : forall target, target ∈ n.dependencies ↔ Resolves n.imports target
  /-- Whoever imported the module before still does, but for the module itself. -/
  mem_dependents : forall a, a ∈ n.dependents ↔
    if a = path then Resolves n.imports path else g.ImportedBy path a

namespace ModuleGraph

variable {g g' : ModuleGraph} {path k : String} {imports : List Import} {n : Node}

/-!
# Adding
-/

/-- What adding a module with a normal path makes of a graph. -/
structure Adds (g : ModuleGraph) (now : Time.Instant) (path : String) (imports : List Import)
    (exports : List Export) (g' : ModuleGraph) : Prop where
  options : g'.options = g.options
  node : exists n, g'.nodes[path]? = some n ∧ n.Added g now path imports exports
  /-- Of the other modules, only the dependents change, and of these only the added module. -/
  others : forall k n, k ≠ path -> g.nodes[k]? = some n ->
    exists dependents, g'.nodes[k]? = some { n with dependents } ∧
      forall a, a ∈ dependents ↔
        if a = path then Resolves (g.kept imports) k else a ∈ n.dependents
  placeholder : forall k, k ≠ path -> g.nodes[k]? = none -> Resolves (g.kept imports) k ->
    g'.nodes[k]? = some { Node.placeholder k with dependents := .ofList [path] }
  unknown : forall k, k ≠ path -> g.nodes[k]? = none -> ¬ Resolves (g.kept imports) k ->
    g'.nodes[k]? = none
  /-- The old edges of the module are gone, and there is one for each resolved import. -/
  edges : exists drawn, g'.edges = (g.edges.filter fun e => e.source ≠ path) ++ drawn ∧
    drawn.map Edge.via = (g.kept imports).filter (fun i => i.resolved.isSome) ∧
    forall e, e ∈ drawn -> e.source = path ∧ e.via.resolved.map Path.normalize = some e.target

theorem mem_targets {target : String} :
    target ∈ g.targets path imports ↔ Resolves (g.kept imports) target := by
  unfold targets
  rw [List.mem_map]
  constructor
  · rintro ⟨e, he, rfl⟩
    rcases mem_edgesOf.mp he with ⟨_, hvia, resolved, hresolved, htarget⟩
    exact ⟨e.via, resolved, hvia, hresolved, htarget⟩
  · rintro ⟨i, resolved, hi, hresolved, rfl⟩
    have he : { source := Path.normalize path, target := Path.normalize resolved, via := i } ∈
        edgesOf (Path.normalize path) (g.kept imports) :=
      mem_edgesOf.mpr ⟨rfl, hi, resolved, hresolved, rfl⟩
    exact ⟨_, he, rfl⟩

theorem map_via_edgesOf (source : String) (imports : List Import) :
    (edgesOf source imports).map Edge.via = imports.filter fun i => i.resolved.isSome := by
  induction imports with
  | nil => rfl
  | cons i imports ih =>
      cases hi : i.resolved with
      | none =>
          have hcons : edgesOf source (i :: imports) = edgesOf source imports := by
            simp [edgesOf, hi]
          rw [hcons, ih, List.filter_cons_of_neg (by simp [hi])]
      | some resolved =>
          have hcons : edgesOf source (i :: imports) =
              { source, target := Path.normalize resolved, via := i } ::
                edgesOf source imports := by
            simp [edgesOf, hi]
          rw [hcons, List.map_cons, ih, List.filter_cons_of_pos (by simp [hi])]

section Adding

variable (now : Time.Instant) (path : String) (imports : List Import) (exports : List Export)

theorem exists_getElem?_add_self (g : ModuleGraph) :
    exists dependents, (g.add now path imports exports).nodes[Path.normalize path]? =
      some { g.addedNode now path imports exports with dependents } := by
  rw [getElem?_add, if_pos rfl]
  split
  · exact ⟨_, rfl⟩
  · exact ⟨_, rfl⟩

theorem Mirrored.added (h : g.Mirrored) :
    exists n, (g.add now path imports exports).nodes[Path.normalize path]? = some n ∧
      n.Added g now (Path.normalize path) imports exports := by
  rcases exists_getElem?_add_self now path imports exports g with ⟨dependents, hself⟩
  refine ⟨_, hself, ?_⟩
  constructor
  case path_eq => rfl
  case analyzed => rfl
  case analyzedAt => rfl
  case imports_eq => rfl
  case accepted =>
    intro i
    rw [← Options.accepts_iff_passes]
    exact List.mem_filter
  case exports_eq => rfl
  case mem_dependencies => exact fun target => PathSet.mem_ofList.trans mem_targets
  case mem_dependents =>
    intro a
    rw [← importedBy_iff_mem hself, h.importedBy_add]
    split
    · exact mem_targets
    · rfl

theorem Mirrored.adds (h : g.Mirrored) :
    g.Adds now (Path.normalize path) imports exports (g.add now path imports exports) := by
  constructor
  case options => exact options_add now path imports exports
  case node => exact h.added now path imports exports
  case others =>
    intro k n hk hn
    have hother := h.getElem?_add_of_ne now path imports exports hk
    rw [hn, Option.getD_some, Option.map_some] at hother
    have hlinks := fun a => h.importedBy_add now path imports exports a k
    split at hother
    · refine ⟨_, hother, fun a => ?_⟩
      rw [← importedBy_iff_mem hn, ← mem_targets, ← hlinks a]
      exact (importedBy_iff_mem hother).symm
    · refine ⟨_, hother, fun a => ?_⟩
      rw [← importedBy_iff_mem hn, ← mem_targets, ← hlinks a]
      exact (importedBy_iff_mem hother).symm
  case placeholder =>
    intro k hk hn ht
    rw [h.getElem?_add_of_ne now path imports exports hk, if_pos (mem_targets.mpr ht), hn,
      Option.getD_none, dropDependent_of_not_mem (PathSet.not_mem_empty _)]
    rfl
  case unknown =>
    intro k hk hn ht
    rw [h.getElem?_add_of_ne now path imports exports hk, if_neg (mt mem_targets.mp ht), hn]
    rfl
  case edges =>
    refine ⟨_, h.edges_add now path imports exports, map_via_edgesOf _ _, ?_⟩
    intro e he
    rcases mem_edgesOf.mp he with ⟨hsource, _, resolved, hresolved, htarget⟩
    rw [hresolved, Option.map_some, htarget]
    exact ⟨hsource, rfl⟩

end Adding

/-!
# Removing
-/

/-- What removing a module with a normal path makes of a graph. -/
structure Removes (g : ModuleGraph) (path : String) (g' : ModuleGraph) : Prop where
  options : g'.options = g.options
  gone : g'.nodes[path]? = none
  others : forall k, k ≠ path -> g'.nodes[k]? = g.nodes[k]?.map fun n =>
    { n with dependencies := n.dependencies.erase path, dependents := n.dependents.erase path }
  edges : g'.edges = g.edges.filter fun e => e.source ≠ path && e.target ≠ path

theorem exists_remove?_eq_some (hn : g.nodes[Path.normalize path]? = some n) :
    exists g', g.remove? path = some g' := by
  unfold remove?
  simp only [hn]
  exact ⟨_, rfl⟩

theorem Mirrored.removes (h : g.Mirrored) (hremove : g.remove? path = some g') :
    g.Removes (Path.normalize path) g' where
  options := options_remove? hremove
  gone := (h.getElem?_remove? hremove _).trans (if_pos rfl)
  others := fun k hk => (h.getElem?_remove? hremove k).trans (if_neg hk)
  edges := edges_remove? hremove

/-!
# Edited graphs
-/

/-- However a graph was edited before, an edit changes nothing but what it has to. -/
theorem changes_edited (o : Options) (edits : List Edit) (path : String) :
    let g := edited o edits
    (forall now imports exports,
      g.Adds now (Path.normalize path) imports exports
        (g.edit (.add now path imports exports))) ∧
    (forall n, g.nodes[Path.normalize path]? = some n ->
      exists g', g.remove? path = some g' ∧ g.edit (.remove path) = g' ∧
        g.Removes (Path.normalize path) g') ∧
    (g.nodes[Path.normalize path]? = none ->
      g.remove? path = none ∧ g.edit (.remove path) = g) := by
  intro g
  have hg : g.Mirrored := mirrored_edited o edits
  refine ⟨?_, ?_, ?_⟩
  · intro now imports exports
    exact hg.adds now path imports exports
  · intro n hn
    rcases exists_remove?_eq_some hn with ⟨g', hremove⟩
    have hedit : g.edit (.remove path) = g' := congrArg (Option.getD · g) hremove
    exact ⟨g', hremove, hedit, hg.removes hremove⟩
  · intro hn
    have hremove := remove?_eq_none hn
    exact ⟨hremove, congrArg (Option.getD · g) hremove⟩

end ModuleGraph
end Graph
end CodeSurvey
