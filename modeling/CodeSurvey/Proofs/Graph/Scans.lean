import CodeSurvey.Proofs.Graph.Editing
import Mathlib.Data.List.Sort
import Mathlib.Data.String.Basic

/-!
# Scanning in any order

The modules of a code base are scanned in any order, some of them again and again.  A scan
takes back what the last scan of the same module brought into the graph.  So the graph
depends on the last scan of each module only, except for placeholders that an earlier scan
left behind.
-/

namespace CodeSurvey
namespace Graph

/-- What a scan finds in a module. -/
structure Findings where
  imports : List Import
  exports : List Export
deriving DecidableEq, Repr

namespace Findings

def kept (o : Options) (f : Findings) : Findings :=
  { f with imports := f.imports.filter o.accepts }

end Findings

structure Scan where
  now : Time.Instant
  path : String
  findings : Findings
deriving DecidableEq, Repr

namespace Scan

def edit (x : Scan) : Edit :=
  .add x.now x.path x.findings.imports x.findings.exports

def subject (x : Scan) : String :=
  Path.normalize x.path

def last? (scans : List Scan) (path : String) : Option Findings :=
  (scans.reverse.find? fun x => x.subject = path).map Scan.findings

theorem last?_concat (scans : List Scan) (x : Scan) (path : String) :
    last? (scans ++ [x]) path =
      if path = x.subject then some x.findings else last? scans path := by
  unfold last?
  rw [List.reverse_append, List.reverse_singleton, List.singleton_append]
  by_cases hpath : path = x.subject
  · rw [if_pos hpath, List.find?_cons_of_pos (by simp [hpath]), Option.map_some]
  · rw [if_neg hpath, List.find?_cons_of_neg (by simpa using Ne.symm hpath)]

theorem last?_eq_none {scans : List Scan} {path : String}
    (h : path ∉ scans.map subject) : last? scans path = none := by
  unfold last?
  rw [Option.map_eq_none_iff, List.find?_eq_none]
  intro x hx hsubject
  apply h
  rw [← of_decide_eq_true hsubject]
  exact List.mem_map_of_mem (List.mem_reverse.mp hx)

end Scan

namespace PathSet

theorem eq_of_mem_iff {s t : PathSet} (h : forall path, path ∈ s ↔ path ∈ t) : s = t := by
  have hlists : s.toList = t.toList :=
    s.ascending.eq_of_mem_iff t.ascending fun path => h path
  cases s
  cases t
  exact (mk.injEq ..).mpr hlists

end PathSet

namespace Node

/-- A module without the time of its analysis. -/
def untimed (n : Node) : Node :=
  { n with analyzedAt := none }

end Node

namespace ModuleGraph

/-- The graph after some scans. -/
def scanned (o : Options) (scans : List Scan) : ModuleGraph :=
  edited o (scans.map Scan.edit)

theorem scanned_concat (o : Options) (scans : List Scan) (x : Scan) :
    scanned o (scans ++ [x]) =
      (scanned o scans).add x.now x.path x.findings.imports x.findings.exports := by
  unfold scanned edited
  rw [List.map_append, List.foldl_append]
  rfl

theorem options_scanned (o : Options) (scans : List Scan) : (scanned o scans).options = o :=
  options_edited o _

theorem mirrored_scanned (o : Options) (scans : List Scan) : (scanned o scans).Mirrored :=
  mirrored_edited o _

/-!
# Findings in the graph
-/

/-- The findings that are stored with a module; a placeholder has none. -/
def findings? (g : ModuleGraph) (path : String) : Option Findings :=
  (g.nodes[path]?.filter Node.analyzed).map fun n => { imports := n.imports, exports := n.exports }

variable {g g' : ModuleGraph}

theorem findings?_eq {path : String} {n : Node} (hn : g.nodes[path]? = some n) :
    g.findings? path =
      if n.analyzed then some { imports := n.imports, exports := n.exports } else none := by
  unfold findings?
  rw [hn, Option.filter_some]
  split
  · rfl
  · rfl

theorem findings?_eq_none {path : String} (hn : g.nodes[path]? = none) :
    g.findings? path = none := by
  unfold findings?
  rw [hn]
  rfl

theorem Mirrored.findings?_add (hg : g.Mirrored) (now : Time.Instant) (path : String)
    (imports : List Import) (exports : List Export) (k : String) :
    (g.add now path imports exports).findings? k =
      if k = Path.normalize path then some { imports := g.kept imports, exports }
      else g.findings? k := by
  by_cases hk : k = Path.normalize path
  · have hself := getElem?_add now path imports exports g k
    rw [if_pos hk] at hself
    rw [if_pos hk, findings?_eq hself]
    split
    · rfl
    · rfl
  · have hother := hg.getElem?_add_of_ne now path imports exports hk
    rw [if_neg hk]
    cases hn : g.nodes[k]? with
    | none =>
        rw [findings?_eq_none hn]
        rw [hn] at hother
        split at hother
        · exact findings?_eq hother
        · exact findings?_eq_none hother
    | some n =>
        rw [findings?_eq hn]
        rw [hn] at hother
        split at hother
        · rw [findings?_eq hother]
          rfl
        · rw [findings?_eq (hother.trans (Option.map_some ..))]
          rfl

theorem findings?_scanned (o : Options) (scans : List Scan) (path : String) :
    (scanned o scans).findings? path = (Scan.last? scans path).map (Findings.kept o) := by
  induction scans using List.reverseRecOn with
  | nil => exact findings?_eq_none Std.TreeMap.getElem?_emptyc
  | append_singleton scans x ih =>
      rw [scanned_concat, (mirrored_scanned o scans).findings?_add, Scan.last?_concat, ih]
      unfold kept
      rw [options_scanned]
      split
      next hpath =>
        rw [if_pos (show path = x.subject from hpath)]
        rfl
      next hpath => rw [if_neg (show ¬ path = x.subject from hpath)]

/-- The edges are those of the imports that were found; this is so as long as no module is
removed. -/
def Drawn (g : ModuleGraph) : Prop :=
  forall path, g.edgesFrom path =
    edgesOf path (((g.findings? path).map Findings.imports).getD [])

theorem drawn_scanned (o : Options) (scans : List Scan) : (scanned o scans).Drawn := by
  induction scans using List.reverseRecOn with
  | nil =>
      intro path
      rw [findings?_eq_none (g := scanned o []) Std.TreeMap.getElem?_emptyc]
      rfl
  | append_singleton scans x ih =>
      have hg := mirrored_scanned o scans
      intro path
      rw [scanned_concat, hg.findings?_add]
      split
      next hpath =>
        rw [hpath, hg.edgesFrom_add_self]
        rfl
      next hpath =>
        rw [hg.edgesFrom_add_of_ne _ _ _ _ hpath]
        exact ih path

/-!
# Graphs with the same findings
-/

theorem hasEdge_iff_edgesFrom {a b : String} :
    g.HasEdge a b ↔ exists e, e ∈ g.edgesFrom a ∧ e.target = b := by
  unfold HasEdge edgesFrom
  simp only [List.mem_filter, decide_eq_true_iff, and_assoc]

theorem edges_perm (h : forall path, g.edgesFrom path = g'.edgesFrom path) :
    g.edges.Perm g'.edges := by
  apply List.perm_iff_count.mpr
  intro e
  have hcount : forall g : ModuleGraph, (g.edgesFrom e.source).count e = g.edges.count e :=
    fun g => List.count_filter (decide_eq_true rfl)
  rw [← hcount g, ← hcount g', h]

theorem Mirrored.content_eq (hg : g.Mirrored) {path : String} {n : Node}
    (hn : g.nodes[path]? = some n) :
    n.analyzed = (g.findings? path).isSome ∧
      n.imports = ((g.findings? path).map Findings.imports).getD [] ∧
      n.exports = ((g.findings? path).map Findings.exports).getD [] := by
  rw [findings?_eq hn]
  cases hanalyzed : n.analyzed with
  | true => exact ⟨rfl, rfl, rfl⟩
  | false =>
      have hplace := (hg.sound path n hn).placeholder hanalyzed
      exact ⟨rfl, hplace.1, hplace.2.1⟩

theorem Mirrored.isSome_findings?_of_dependsOn (hg : g.Mirrored) {a b : String}
    (hab : g.DependsOn a b) : (g.findings? a).isSome = true := by
  rcases hab with ⟨n, hn, hb⟩
  rw [← (hg.content_eq hn).1]
  cases hanalyzed : n.analyzed with
  | true => rfl
  | false =>
      rw [((hg.sound a n hn).placeholder hanalyzed).2.2] at hb
      exact absurd hb (PathSet.not_mem_empty b)

/-- The first graph goes into the second one: they differ in the times of the analyses, in
the order of the edges, and in placeholders that no module imports. -/
structure Within (g g' : ModuleGraph) : Prop where
  analyzed : forall (path : String) (n : Node), g.nodes[path]? = some n ->
    n.analyzed = true -> exists n' : Node, g'.nodes[path]? = some n' ∧ n'.untimed = n.untimed
  imported : forall a b : String, g.DependsOn a b ->
    exists n n' : Node, g.nodes[b]? = some n ∧ g'.nodes[b]? = some n' ∧
      n'.dependents = n.dependents
  edges : g'.edges.Perm g.edges
  missing : forall (path : String) (n : Node), g.nodes[path]? = some n ->
    g'.nodes[path]? = none -> n.analyzed = false ∧ n.dependents = ∅

section Comparing

variable (hg : g.Mirrored) (hg' : g'.Mirrored)
  (hfindings : forall path, g.findings? path = g'.findings? path)
  (hlinks : forall a b, g.DependsOn a b ↔ g'.DependsOn a b)

include hg hg' hfindings hlinks in
theorem untimed_eq {path : String} {n n' : Node} (hn : g.nodes[path]? = some n)
    (hn' : g'.nodes[path]? = some n') : n'.untimed = n.untimed := by
  have hpath : n'.path = n.path :=
    (hg'.sound path n' hn').path_eq.trans (hg.sound path n hn).path_eq.symm
  have hcontent := hg.content_eq hn
  have hcontent' := hg'.content_eq hn'
  rw [← hfindings] at hcontent'
  have hdeps : n'.dependencies = n.dependencies := by
    apply PathSet.eq_of_mem_iff
    intro b
    rw [← dependsOn_iff hn', ← dependsOn_iff hn, hlinks]
  have hdependents : n'.dependents = n.dependents := by
    apply PathSet.eq_of_mem_iff
    intro a
    rw [← importedBy_iff_mem hn', ← importedBy_iff_mem hn, hg'.importedBy_iff,
      hg.importedBy_iff, hlinks]
  unfold Node.untimed
  rw [hpath, hdeps, hdependents, hcontent'.1, hcontent'.2.1, hcontent'.2.2, ← hcontent.1,
    ← hcontent.2.1, ← hcontent.2.2]

include hfindings in
theorem exists_of_isSome_findings? {path : String}
    (h : (g.findings? path).isSome = true) : exists n', g'.nodes[path]? = some n' := by
  rw [hfindings] at h
  cases hn' : g'.nodes[path]? with
  | none =>
      rw [findings?_eq_none hn'] at h
      cases h
  | some n' => exact ⟨n', rfl⟩

include hg hg' hfindings hlinks in
theorem within (hedges : g'.edges.Perm g.edges) : g.Within g' where
  analyzed := by
    intro path n hn hanalyzed
    rw [(hg.content_eq hn).1] at hanalyzed
    rcases exists_of_isSome_findings? hfindings hanalyzed with ⟨n', hn'⟩
    exact ⟨n', hn', untimed_eq hg hg' hfindings hlinks hn hn'⟩
  imported := by
    intro a b hab
    rcases (hg.importedBy_iff a b).mpr hab with ⟨n, hn, _⟩
    rcases (hg'.importedBy_iff a b).mpr ((hlinks a b).mp hab) with ⟨n', hn', _⟩
    have hsame := untimed_eq hg hg' hfindings hlinks hn hn'
    have hdependents : n'.untimed.dependents = n.untimed.dependents :=
      congrArg Node.dependents hsame
    exact ⟨n, n', hn, hn', hdependents⟩
  edges := hedges
  missing := by
    intro path n hn hnone
    constructor
    · rw [(hg.content_eq hn).1, hfindings, findings?_eq_none hnone]
      rfl
    · apply PathSet.eq_of_mem_iff
      intro a
      refine iff_of_false ?_ (PathSet.not_mem_empty a)
      intro ha
      have hab := (hg.importedBy_iff a path).mp ⟨n, hn, ha⟩
      have hsome := hg'.dependsOn_right ((hlinks a path).mp hab)
      rw [hnone] at hsome
      cases hsome

end Comparing

/-!
# Placeholders without a purpose

A placeholder is created for a module that is imported.  Only the next scan of an importing
module can leave it without dependents.
-/

/-- Every placeholder is imported by some module. -/
def Anchored (g : ModuleGraph) : Prop :=
  forall path n, g.nodes[path]? = some n -> n.analyzed = false -> exists a, g.DependsOn a path

/-- The first scan of a module leaves no placeholder without a purpose. -/
theorem Anchored.add (h : g.Anchored) (hg : g.Mirrored) (now : Time.Instant) {path : String}
    (imports : List Import) (exports : List Export)
    (hfirst : g.findings? (Path.normalize path) = none) :
    (g.add now path imports exports).Anchored := by
  intro k n hn hplace
  have hk : k ≠ Path.normalize path := by
    rintro rfl
    have hcontent := ((hg.add now path imports exports).content_eq hn).1
    rw [hg.findings?_add, if_pos rfl, hplace] at hcontent
    cases hcontent
  have hdepends := fun a => hg.dependsOn_add now path imports exports a k
  by_cases ht : k ∈ g.targets path imports
  · refine ⟨Path.normalize path, (hdepends _).mpr ?_⟩
    rw [if_pos rfl]
    exact ht
  · rw [hg.getElem?_add_of_ne now path imports exports hk, if_neg ht] at hn
    rcases Option.map_eq_some_iff.mp hn with ⟨m, hm, rfl⟩
    rcases h k m hm hplace with ⟨a, ha⟩
    -- The module had no imports before its first scan, so none of its links is taken back.
    have hne : a ≠ Path.normalize path := by
      rintro rfl
      have hsome := hg.isSome_findings?_of_dependsOn ha
      rw [hfirst] at hsome
      cases hsome
    refine ⟨a, (hdepends a).mpr ?_⟩
    rw [if_neg hne]
    exact ha

theorem anchored_scanned (o : Options) {scans : List Scan}
    (h : (scans.map Scan.subject).Nodup) : (scanned o scans).Anchored := by
  induction scans using List.reverseRecOn with
  | nil =>
      intro path n hn
      have hnone : (scanned o []).nodes[path]? = none := Std.TreeMap.getElem?_emptyc
      exact nomatch hnone.symm.trans hn
  | append_singleton scans x ih =>
      rw [List.map_append, List.map_singleton] at h
      have hparts := List.nodup_cons.mp ((List.perm_append_singleton _ _).nodup_iff.mp h)
      have hfirst : (scanned o scans).findings? x.subject = none := by
        rw [findings?_scanned, Scan.last?_eq_none hparts.1]
        rfl
      rw [scanned_concat]
      exact (ih hparts.2).add (mirrored_scanned o scans) x.now _ _ hfirst

/-- Nothing of an anchored graph can be missing in a graph that it goes into. -/
theorem Within.exists_of_anchored (h : g.Within g') (hg : g.Mirrored) (hanchored : g.Anchored)
    {path : String} {n : Node} (hn : g.nodes[path]? = some n) :
    exists n', g'.nodes[path]? = some n' := by
  cases hn' : g'.nodes[path]? with
  | some n' => exact ⟨n', rfl⟩
  | none =>
      rcases h.missing path n hn hn' with ⟨hplace, hnobody⟩
      rcases hanchored path n hn hplace with ⟨a, ha⟩
      have hmem := (importedBy_iff_mem hn).mp ((hg.importedBy_iff a path).mpr ha)
      rw [hnobody] at hmem
      exact absurd hmem (PathSet.not_mem_empty a)

/-!
# Orders of scans
-/

theorem dependsOn_iff_of_edgesFrom_eq (hg : g.Mirrored) (hg' : g'.Mirrored)
    (h : forall path, g.edgesFrom path = g'.edgesFrom path) (a b : String) :
    g.DependsOn a b ↔ g'.DependsOn a b := by
  rw [← hg.hasEdge_iff, ← hg'.hasEdge_iff, hasEdge_iff_edgesFrom, hasEdge_iff_edgesFrom, h]

/-- Two series of scans whose last scans found the same lead to graphs that go into each
other.  Where no module is scanned twice, the graphs have the same modules. -/
theorem within_of_last?_eq (o : Options) {scans scans' : List Scan}
    (h : forall path, Scan.last? scans path = Scan.last? scans' path) :
    (scanned o scans).Within (scanned o scans') ∧
      (scanned o scans').Within (scanned o scans) ∧
      ((scans.map Scan.subject).Nodup -> (scans'.map Scan.subject).Nodup ->
        forall path : String, (scanned o scans).nodes[path]?.map Node.untimed =
          (scanned o scans').nodes[path]?.map Node.untimed) := by
  -- From here on the scans enter only by the findings and the edges that they leave behind.
  have hg := mirrored_scanned o scans
  have hg' := mirrored_scanned o scans'
  have hfindings : forall path,
      (scanned o scans).findings? path = (scanned o scans').findings? path := by
    intro path
    rw [findings?_scanned, findings?_scanned, h]
  have hedges : forall path,
      (scanned o scans).edgesFrom path = (scanned o scans').edgesFrom path := by
    intro path
    rw [drawn_scanned, drawn_scanned, hfindings]
  have hlinks := dependsOn_iff_of_edgesFrom_eq hg hg' hedges
  have hwithin := within hg hg' hfindings hlinks (edges_perm hedges).symm
  have hwithin' := within hg' hg (fun path => (hfindings path).symm)
    (fun a b => (hlinks a b).symm) (edges_perm hedges)
  refine ⟨hwithin, hwithin', ?_⟩
  intro hnodup hnodup' path
  cases hn : (scanned o scans).nodes[path]? with
  | some n =>
      rcases hwithin.exists_of_anchored hg (anchored_scanned o hnodup) hn with ⟨n', hn'⟩
      rw [hn', Option.map_some, Option.map_some, untimed_eq hg hg' hfindings hlinks hn hn']
  | none =>
      cases hn' : (scanned o scans').nodes[path]? with
      | none => rfl
      | some n' =>
          rcases hwithin'.exists_of_anchored hg' (anchored_scanned o hnodup') hn' with ⟨n, hn''⟩
          exact nomatch hn.symm.trans hn''

/-- A module that is scanned twice, under two spellings; the import that only its first scan
finds leaves a placeholder behind.  Without that scan, the order makes no difference. -/
theorem within_of_last?_eq_rescanned :
    let link := fun target => { Import.ofSource target with resolved := some target }
    let o : Options := { trackTypeImports := true, includeInstalled := false }
    let old : Scan := ⟨⟨0, 0⟩, "a", [link "b"], []⟩
    let new : Scan := ⟨⟨1, 0⟩, "a/", [link "c"], []⟩
    let other : Scan := ⟨⟨2, 0⟩, "c", [], []⟩
    ((scanned o [old, other, new]).Within (scanned o [new, other]) ∧
        (scanned o [new, other]).Within (scanned o [old, other, new]) ∧
        (scanned o [old, other, new]).paths = ["a", "b", "c"] ∧
        (scanned o [new, other]).paths = ["a", "c"]) ∧
      forall path : String, (scanned o [new, other]).nodes[path]?.map Node.untimed =
        (scanned o [other, new]).nodes[path]?.map Node.untimed := by
  intro link o old new other
  have hold : old.subject = "a" := by decide +kernel
  have hnew : new.subject = "a" := by decide +kernel
  have hother : other.subject = "c" := by decide +kernel
  have htwo : forall (x y : Scan) (path : String), Scan.last? [x, y] path =
      if path = y.subject then some y.findings
      else if path = x.subject then some x.findings else none :=
    fun x y path => (Scan.last?_concat [x] y path).trans
      (by rw [← List.nil_append [x], Scan.last?_concat]; rfl)
  have hlast : forall path,
      Scan.last? [old, other, new] path = Scan.last? [new, other] path ∧
        Scan.last? [new, other] path = Scan.last? [other, new] path := by
    intro path
    have hthree := Scan.last?_concat [old, other] new path
    grind
  have hrescanned := within_of_last?_eq o fun path => (hlast path).1
  have hordered := within_of_last?_eq o fun path => (hlast path).2
  refine ⟨⟨hrescanned.1, hrescanned.2.1, by decide +kernel, by decide +kernel⟩, hordered.2.2 ?_ ?_⟩
  · simp [hnew, hother]
  · simp [hnew, hother]

end ModuleGraph
end Graph
end CodeSurvey
