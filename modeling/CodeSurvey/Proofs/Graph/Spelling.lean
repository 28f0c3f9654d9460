import CodeSurvey.Proofs.Graph.Changes
import CodeSurvey.Proofs.Graph.Tour
import Mathlib.Data.List.Sort
import Mathlib.Data.Option.Basic
import Mathlib.Data.String.Basic

/-!
# Spellings of a path

A graph can be edited and asked with any spelling of a path.  Two sequences of edits that
differ only in how paths are spelled lead to graphs with the same modules and the same links:
only the imports that are stored there keep their spelling.  So both graphs give the same
answers to all spellings of a path.
-/

namespace CodeSurvey
namespace Graph

/-!
# Respelling

Two records are the same but for spelling when they agree as soon as all resolved paths are
in normal form.
-/

def Import.normal (i : Import) : Import :=
  { i with resolved := i.resolved.map Path.normalize }

def Node.normal (n : Node) : Node :=
  { n with imports := n.imports.map Import.normal }

def Edge.normal (e : Edge) : Edge :=
  { e with via := e.via.normal }

def Edit.normal : Edit -> Edit
  | .add now path imports exports =>
      .add now (Path.normalize path) (imports.map Import.normal) exports
  | .remove path => .remove (Path.normalize path)
  | .clear => .clear

theorem Options.accepts_normal (o : Options) (i : Import) : o.accepts i.normal = o.accepts i := by
  unfold accepts Import.normal acceptsTarget
  cases i.resolved with
  | none => rfl
  | some path =>
      simp only [Option.map_some, Path.normalize_normalize]

theorem map_normal_filter (o : Options) (imports : List Import) :
    (imports.filter o.accepts).map Import.normal =
      (imports.map Import.normal).filter o.accepts := by
  rw [List.filter_map]
  congr 2
  funext i
  exact (o.accepts_normal i).symm

namespace ModuleGraph

theorem map_normal_edgesOf (source : String) (imports : List Import) :
    (edgesOf source imports).map Edge.normal = edgesOf source (imports.map Import.normal) := by
  unfold edgesOf
  rw [List.map_filterMap, List.filterMap_map]
  apply List.filterMap_congr
  intro i _
  unfold Import.normal
  cases hi : i.resolved with
  | none => simp [hi]
  | some resolved => simp [hi, Edge.normal, Import.normal]

/-- Two graphs are the same but for the spelling of the imports that they store. -/
structure Matches (g g' : ModuleGraph) : Prop where
  options : g.options = g'.options
  node : forall path : String, g.nodes[path]?.map Node.normal = g'.nodes[path]?.map Node.normal
  edges : g.edges.map Edge.normal = g'.edges.map Edge.normal

theorem Matches.refl (g : ModuleGraph) : g.Matches g :=
  ⟨rfl, fun _ => rfl, rfl⟩

variable {g g' : ModuleGraph} {p q : String} {imports imports' : List Import}

theorem Matches.read (h : g.Matches g') (f : Node -> a) (hf : forall n, f n.normal = f n)
    (path : String) : g.nodes[path]?.map f = g'.nodes[path]?.map f := by
  have hnormal (n : Option Node) : n.map f = (n.map Node.normal).map f := by
    rw [Option.map_map]
    congr 1
    funext n
    exact (hf n).symm
  rw [hnormal, h.node, ← hnormal]

/-- A module is the same in both graphs when both change it in a way that does not depend on
spelling. -/
theorem Matches.map_node (h : g.Matches g') {f : Node -> Node}
    (hf : forall n, (f n).normal = f n.normal) (path : String) :
    (g.nodes[path]?.map f).map Node.normal = (g'.nodes[path]?.map f).map Node.normal := by
  have hnormal (n : Option Node) : (n.map f).map Node.normal = (n.map Node.normal).map f := by
    rw [Option.map_map, Option.map_map]
    congr 1
    funext n
    exact hf n
  rw [hnormal, hnormal, h.node]

/-!
# Adding
-/

theorem Matches.kept (h : g.Matches g')
    (himports : imports.map Import.normal = imports'.map Import.normal) :
    (g.kept imports).map Import.normal = (g'.kept imports').map Import.normal := by
  unfold ModuleGraph.kept
  rw [map_normal_filter, map_normal_filter, himports, h.options]

theorem Matches.edgesOf (h : g.Matches g')
    (himports : imports.map Import.normal = imports'.map Import.normal) (source : String) :
    (edgesOf source (g.kept imports)).map Edge.normal =
      (edgesOf source (g'.kept imports')).map Edge.normal := by
  rw [map_normal_edgesOf, map_normal_edgesOf, h.kept himports]

theorem map_target_map_normal (edges : List Edge) :
    (edges.map Edge.normal).map Edge.target = edges.map Edge.target :=
  List.map_map

theorem Matches.targets (h : g.Matches g') (hpath : Path.normalize p = Path.normalize q)
    (himports : imports.map Import.normal = imports'.map Import.normal) :
    g.targets p imports = g'.targets q imports' := by
  unfold ModuleGraph.targets
  rw [← map_target_map_normal, h.edgesOf himports, map_target_map_normal, hpath]

theorem map_normal_filter_edges (keep : String -> String -> Bool) (edges : List Edge) :
    (edges.filter fun e => keep e.source e.target).map Edge.normal =
      (edges.map Edge.normal).filter fun e => keep e.source e.target := by
  rw [List.filter_map]
  rfl

section Add

variable (now : Time.Instant) (exports : List Export)

theorem Matches.addedNode (h : g.Matches g') (hg : g.Mirrored) (hg' : g'.Mirrored)
    (hpath : Path.normalize p = Path.normalize q)
    (himports : imports.map Import.normal = imports'.map Import.normal) :
    (g.addedNode now p imports exports).normal = (g'.addedNode now q imports' exports).normal := by
  unfold ModuleGraph.addedNode Node.normal
  simp only
  rw [h.kept himports, h.targets hpath himports, hpath, hg.getElem?_unlinkOutgoing,
    hg'.getElem?_unlinkOutgoing, Option.map_map, Option.map_map, h.read]
  exact fun _ => rfl

theorem Mirrored.map_normal_add (hg : g.Mirrored) (p : String) (imports : List Import)
    (k : String) :
    (g.add now p imports exports).nodes[k]?.map Node.normal =
      if k = Path.normalize p then
        some (if k ∈ g.targets p imports then
          addDependent k (g.addedNode now p imports exports).normal
          else (g.addedNode now p imports exports).normal)
      else if k ∈ g.targets p imports then
        some (addDependent (Path.normalize p) (dropDependent (Path.normalize p)
          ((g.nodes[k]?.map Node.normal).getD (.placeholder k))))
      else (g.nodes[k]?.map Node.normal).map (dropDependent (Path.normalize p)) := by
  by_cases hk : k = Path.normalize p
  · rw [getElem?_add, if_pos hk, if_pos hk]
    split
    · rfl
    · rfl
  · rw [hg.getElem?_add_of_ne now p imports exports hk, if_neg hk]
    split
    · cases g.nodes[k]? with
      | none => rfl
      | some n => rfl
    · cases g.nodes[k]? with
      | none => rfl
      | some n => rfl

theorem Matches.add (h : g.Matches g') (hg : g.Mirrored) (hg' : g'.Mirrored)
    (hpath : Path.normalize p = Path.normalize q)
    (himports : imports.map Import.normal = imports'.map Import.normal) :
    (g.add now p imports exports).Matches (g'.add now q imports' exports) where
  options := by
    rw [options_add, options_add, h.options]
  node := by
    intro k
    rw [hg.map_normal_add, hg'.map_normal_add, h.node, h.targets hpath himports,
      h.addedNode now exports hg hg' hpath himports, hpath]
  edges := by
    have hkept := map_normal_filter_edges fun source _ => source ≠ Path.normalize q
    rw [hg.edges_add, hg'.edges_add, List.map_append, List.map_append, h.edgesOf himports, hpath,
      hkept, hkept, h.edges]

end Add

/-!
# Removing
-/

theorem Matches.isSome_eq (h : g.Matches g') (k : String) :
    (g.nodes[k]?).isSome = (g'.nodes[k]?).isSome := by
  have hread := congrArg Option.isSome (h.node k)
  rwa [Option.isSome_map, Option.isSome_map] at hread

theorem Matches.of_removes (h : g.Matches g') {r r' : ModuleGraph} {path : String}
    (hr : g.Removes path r) (hr' : g'.Removes path r') : r.Matches r' where
  options := by
    rw [hr.options, hr'.options, h.options]
  node := by
    intro k
    by_cases hk : k = path
    · rw [hk, hr.gone, hr'.gone]
    · rw [hr.others k hk, hr'.others k hk]
      apply h.map_node
      intro n
      rfl
  edges := by
    have hkept := map_normal_filter_edges fun source target => source ≠ path && target ≠ path
    rw [hr.edges, hr'.edges, hkept, hkept, h.edges]

theorem Matches.remove? (h : g.Matches g') (hg : g.Mirrored) (hg' : g'.Mirrored)
    (hpath : Path.normalize p = Path.normalize q) :
    Option.Rel Matches (g.remove? p) (g'.remove? q) := by
  have hsame := h.node (Path.normalize q)
  cases hn' : g'.nodes[Path.normalize q]? with
  | none =>
      rw [hn', Option.map_none, Option.map_eq_none_iff, ← hpath] at hsame
      rw [remove?_eq_none hn', remove?_eq_none hsame]
      exact .none
  | some n' =>
      rw [hn', Option.map_some] at hsame
      rcases Option.map_eq_some_iff.mp hsame with ⟨n, hn, _⟩
      rw [← hpath] at hn
      rcases exists_remove?_eq_some hn with ⟨r, hr⟩
      rcases exists_remove?_eq_some hn' with ⟨r', hr'⟩
      rw [hr, hr']
      have hremoves := hg.removes hr
      rw [hpath] at hremoves
      exact .some (h.of_removes hremoves (hg'.removes hr'))

/-!
# Edits
-/

theorem Matches.edit (h : g.Matches g') (hg : g.Mirrored) (hg' : g'.Mirrored) {e e' : Edit}
    (he : e.normal = e'.normal) : (g.edit e).Matches (g'.edit e') := by
  cases e with
  | add now p imports exports =>
      cases e' with
      | add now' q imports' exports' =>
          rcases Edit.add.inj he with ⟨rfl, hpath, himports, rfl⟩
          exact h.add now exports hg hg' hpath himports
      | remove q => cases he
      | clear => cases he
  | remove p =>
      cases e' with
      | add now' q imports' exports' => cases he
      | remove q =>
          have hremove := h.remove? hg hg' (Edit.remove.inj he)
          show ((g.remove? p).getD g).Matches ((g'.remove? q).getD g')
          generalize g.remove? p = r, g'.remove? q = r' at hremove
          cases hremove with
          | none => exact h
          | some hmatches => exact hmatches
      | clear => cases he
  | clear =>
      cases e' with
      | add now' q imports' exports' => cases he
      | remove q => cases he
      | clear =>
          show (empty g.options).Matches (empty g'.options)
          rw [h.options]
          exact Matches.refl _

theorem matches_foldl_edit (h : g.Matches g') (hg : g.Mirrored) (hg' : g'.Mirrored)
    {edits edits' : List Edit} (hedits : edits.map Edit.normal = edits'.map Edit.normal) :
    (edits.foldl ModuleGraph.edit g).Matches (edits'.foldl ModuleGraph.edit g') := by
  induction edits generalizing g g' edits' with
  | nil =>
      cases edits' with
      | nil => exact h
      | cons e' edits' => cases hedits
  | cons e edits ih =>
      cases edits' with
      | nil => cases hedits
      | cons e' edits' =>
          rcases List.cons.inj hedits with ⟨he, hedits⟩
          exact ih (h.edit hg hg' he) (hg.edit e) (hg'.edit e') hedits

theorem matches_edited (o : Options) {edits edits' : List Edit}
    (hedits : edits.map Edit.normal = edits'.map Edit.normal) :
    (edited o edits).Matches (edited o edits') :=
  matches_foldl_edit (Matches.refl _) (mirrored_empty o) (mirrored_empty o) hedits

/-!
# Answers
-/

theorem Matches.paths (h : g.Matches g') : g.paths = g'.paths := by
  apply g.ascending_paths.eq_of_mem_iff g'.ascending_paths
  intro path
  rw [mem_paths, mem_paths, h.isSome_eq]

end ModuleGraph

theorem Links.eq_of_next? {l l' : Links} (hpaths : l.paths = l'.paths)
    (hnext : forall path, l.next? path = l'.next? path) : l = l' := by
  cases l
  cases l'
  cases hpaths
  cases funext hnext
  rfl

namespace ModuleGraph

variable {g g' : ModuleGraph} {p q : String}

/-- A search sees the same in both graphs. -/
theorem Matches.links (h : g.Matches g') (neighbours : Node -> PathSet)
    (hneighbours : forall n, neighbours n.normal = neighbours n) :
    g.links neighbours = g'.links neighbours := by
  apply Links.eq_of_next? h.paths
  apply h.read
  intro n
  rw [hneighbours]

/-- Two graphs give the same answers to two spellings of a path. -/
structure AnswersAlike (g g' : ModuleGraph) (p q : String) : Prop where
  node : (g.node? p).map Node.normal = (g'.node? q).map Node.normal
  contains : g.contains p = g'.contains q
  dependencies : g.dependencies p = g'.dependencies q
  dependents : g.dependents p = g'.dependents q
  transitiveDependencies : g.transitiveDependencies p = g'.transitiveDependencies q
  transitiveDependents : g.transitiveDependents p = g'.transitiveDependents q

theorem Matches.answersAlike (h : g.Matches g') (hpath : Path.normalize p = Path.normalize q) :
    g.AnswersAlike g' p q where
  node := by
    unfold node?
    rw [hpath, h.node]
  contains := by
    unfold contains node?
    rw [hpath, h.isSome_eq]
  dependencies := by
    unfold dependencies node?
    rw [hpath, h.read]
    exact fun _ => rfl
  dependents := by
    unfold dependents node?
    rw [hpath, h.read]
    exact fun _ => rfl
  transitiveDependencies := by
    unfold transitiveDependencies
    rw [hpath, h.links Node.dependencies fun _ => rfl]
  transitiveDependents := by
    unfold transitiveDependents
    rw [hpath, h.links Node.dependents fun _ => rfl]

/-- A graph does not tell two spellings of a path apart. -/
structure Identifies (g : ModuleGraph) (p q : String) : Prop where
  add : forall now imports exports, g.add now p imports exports = g.add now q imports exports
  remove : g.remove? p = g.remove? q
  node : g.node? p = g.node? q
  contains : g.contains p = g.contains q
  dependencies : g.dependencies p = g.dependencies q
  dependents : g.dependents p = g.dependents q
  transitiveDependencies : g.transitiveDependencies p = g.transitiveDependencies q
  transitiveDependents : g.transitiveDependents p = g.transitiveDependents q

theorem identifies (g : ModuleGraph) (hpath : Path.normalize p = Path.normalize q) :
    g.Identifies p q := by
  have hanswers := (Matches.refl g).answersAlike hpath
  exact
    { add := by
        intro now imports exports
        unfold add
        rw [hpath]
      remove := by
        unfold remove?
        rw [hpath]
      node := by
        unfold node?
        rw [hpath]
      contains := hanswers.contains
      dependencies := hanswers.dependencies
      dependents := hanswers.dependents
      transitiveDependencies := hanswers.transitiveDependencies
      transitiveDependents := hanswers.transitiveDependents }

/-- The normal form of a path has no backslash, ends in no slash unless it is one, and is its
own normal form; two paths have the same one exactly when they are alike.  However a graph was
edited, it does not tell such paths apart.  Edits that differ in spelling only, of paths and of
the files that imports were resolved to, lead to graphs that match, and whatever is asked or
edited next in any spelling gives the same result in both. -/
theorem spellings_edited (o : Options) :
    (forall path, '\\' ∉ (Path.normalize path).toList ∧
      ((Path.normalize path).toList.getLast? = some '/' -> Path.normalize path = "/") ∧
      Path.normalize (Path.normalize path) = Path.normalize path) ∧
    (forall p q, Path.normalize p = Path.normalize q ↔ Path.Alike p q) ∧
    (forall edits p q, Path.normalize p = Path.normalize q -> (edited o edits).Identifies p q) ∧
    forall edits edits', edits.map Edit.normal = edits'.map Edit.normal ->
      let g := edited o edits
      let g' := edited o edits'
      g.Matches g' ∧ forall p q, Path.normalize p = Path.normalize q ->
        g.AnswersAlike g' p q ∧
        (forall now imports imports' exports,
          imports.map Import.normal = imports'.map Import.normal ->
            (g.add now p imports exports).Matches (g'.add now q imports' exports)) ∧
        Option.Rel Matches (g.remove? p) (g'.remove? q) := by
  refine ⟨?_, ?_, ?_, ?_⟩
  · intro path
    exact ⟨Path.backslash_not_mem_normalize path, Path.normalize_eq_slash_of_getLast?,
      Path.normalize_normalize path⟩
  · intro p q
    exact Path.normalize_eq_normalize_iff
  · intro edits p q hpath
    exact (edited o edits).identifies hpath
  · intro edits edits' hedits g g'
    have hg : g.Mirrored := mirrored_edited o edits
    have hg' : g'.Mirrored := mirrored_edited o edits'
    have hmatches : g.Matches g' := matches_edited o hedits
    refine ⟨hmatches, ?_⟩
    intro p q hpath
    refine ⟨hmatches.answersAlike hpath, ?_, hmatches.remove? hg hg' hpath⟩
    intro now imports imports' exports himports
    exact hmatches.add now exports hg hg' hpath himports

end ModuleGraph
end Graph
end CodeSurvey
