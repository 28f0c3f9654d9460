import CodeSurvey.Proofs.Graph.Changes
import CodeSurvey.Proofs.Graph.Tour

/-!
# Placeholders

A module comes into a graph because it was added, or as a placeholder because a module that
was added imports it.  The graph lists the placeholders that were not added since.  It keeps
listing one when nothing imports it any more, until that module is added or removed itself.
-/

namespace CodeSurvey
namespace Graph

/-!
# What is known of a module
-/

/-- One of the imports counts and leads to the module. -/
def Options.Admits (o : Options) (imports : List Import) (path : String) : Prop :=
  exists i, i ∈ imports ∧ o.Passes i ∧ i.resolved.map Path.normalize = some path

instance (o : Options) (i : Import) : Decidable (o.Passes i) :=
  decidable_of_iff (o.accepts i = true) Options.accepts_iff_passes

instance (o : Options) (imports : List Import) (path : String) :
    Decidable (o.Admits imports path) :=
  inferInstanceAs (Decidable
    (exists i, i ∈ imports ∧ o.Passes i ∧ i.resolved.map Path.normalize = some path))

def Edit.subject? : Edit -> Option String
  | .add _ path _ _ => some (Path.normalize path)
  | .remove path => some (Path.normalize path)
  | .clear => none

inductive Standing where
  | unknown
  /-- It came in as the target of an import and was not added since. -/
  | referenced
  | scanned
deriving DecidableEq, Repr

namespace Standing

/-- What is known of a module after one more edit. -/
def after (o : Options) (path : String) (s : Standing) : Edit -> Standing
  | .add _ subject imports _ =>
      if Path.normalize subject = path then .scanned
      else if s = .unknown ∧ o.Admits imports path then .referenced
      else s
  | .remove subject => if Path.normalize subject = path then .unknown else s
  | .clear => .unknown

/-- What an edit does so that a module is a placeholder after it. -/
theorem of_after_eq_referenced {o : Options} {path : String} {s : Standing} {e : Edit}
    (h : s.after o path e = .referenced) :
    e ≠ .clear ∧ e.subject? ≠ some path ∧ (s = .referenced ∨
      exists now subject imports exports,
        e = .add now subject imports exports ∧ o.Admits imports path) := by
  cases e with
  | add now subject imports exports =>
      unfold after at h
      simp only at h
      split at h
      next => cases h
      next hother =>
        refine ⟨nofun, fun heq => hother (Option.some.inj heq), ?_⟩
        split at h
        next hand => exact Or.inr ⟨now, subject, imports, exports, rfl, hand.2⟩
        next => exact Or.inl h
  | remove subject =>
      unfold after at h
      simp only at h
      split at h
      next => cases h
      next hother => exact ⟨nofun, fun heq => hother (Option.some.inj heq), Or.inl h⟩
  | clear => cases h

/-- What a graph has at the path of a module. -/
def ofNode : Option Node -> Standing
  | none => .unknown
  | some n => if n.analyzed then .scanned else .referenced

end Standing

/-- What is known of a module after some edits, without a look at the graph. -/
def standing (o : Options) (edits : List Edit) (path : String) : Standing :=
  edits.foldl (Standing.after o path) .unknown

namespace ModuleGraph

variable {g : ModuleGraph} {path : String}

theorem resolves_kept_iff {imports : List Import} :
    Resolves (g.kept imports) path ↔ g.options.Admits imports path := by
  unfold Resolves Options.Admits
  constructor
  · rintro ⟨i, resolved, hi, hresolved, htarget⟩
    rcases List.mem_filter.mp hi with ⟨hi, haccepts⟩
    refine ⟨i, hi, Options.accepts_iff_passes.mp haccepts, ?_⟩
    rw [hresolved, Option.map_some, htarget]
  · rintro ⟨i, hi, hpasses, hmap⟩
    rcases Option.map_eq_some_iff.mp hmap with ⟨resolved, hresolved, htarget⟩
    have haccepts := Options.accepts_iff_passes.mpr hpasses
    exact ⟨i, resolved, List.mem_filter.mpr ⟨hi, haccepts⟩, hresolved, htarget⟩

theorem Mirrored.ofNode_add (h : g.Mirrored) (now : Time.Instant) (subject : String)
    (imports : List Import) (exports : List Export) (path : String) :
    Standing.ofNode (g.add now subject imports exports).nodes[path]? =
      (Standing.ofNode g.nodes[path]?).after g.options path (.add now subject imports exports) := by
  have hadds := h.adds now subject imports exports
  unfold Standing.after
  simp only
  split
  next hself =>
    subst hself
    rcases hadds.node with ⟨n, hn, hadded⟩
    rw [hn]
    exact if_pos hadded.analyzed
  next hother =>
    have hne : path ≠ Path.normalize subject := Ne.symm hother
    cases hn : g.nodes[path]? with
    | some n =>
        rcases hadds.others path n hne hn with ⟨dependents, hn', _⟩
        have hknown : Standing.ofNode (some n) ≠ .unknown := by
          unfold Standing.ofNode
          simp only
          split <;> exact nofun
        rw [hn', if_neg fun hand => hknown hand.1]
        rfl
    | none =>
        by_cases ht : g.options.Admits imports path
        · rw [hadds.placeholder path hne hn (resolves_kept_iff.mpr ht), if_pos ⟨rfl, ht⟩]
          rfl
        · rw [hadds.unknown path hne hn (mt resolves_kept_iff.mp ht),
            if_neg fun hand => ht hand.2]

theorem Mirrored.ofNode_remove? (h : g.Mirrored) {g' : ModuleGraph} {subject : String}
    (hremove : g.remove? subject = some g') (path : String) :
    Standing.ofNode g'.nodes[path]? =
      (Standing.ofNode g.nodes[path]?).after g.options path (.remove subject) := by
  have hremoves := h.removes hremove
  unfold Standing.after
  simp only
  split
  next hself =>
    subst hself
    rw [hremoves.gone]
    rfl
  next hother =>
    rw [hremoves.others path (Ne.symm hother)]
    cases g.nodes[path]? with
    | none => rfl
    | some n => rfl

theorem Mirrored.ofNode_edit (h : g.Mirrored) (e : Edit) (path : String) :
    Standing.ofNode (g.edit e).nodes[path]? =
      (Standing.ofNode g.nodes[path]?).after g.options path e := by
  cases e with
  | add now subject imports exports => exact h.ofNode_add now subject imports exports path
  | remove subject =>
      show Standing.ofNode ((g.remove? subject).getD g).nodes[path]? = _
      cases hremove : g.remove? subject with
      | some g' => exact h.ofNode_remove? hremove path
      | none =>
          rw [Option.getD_none]
          unfold Standing.after
          simp only
          split
          next hself =>
            subst hself
            cases hn : g.nodes[Path.normalize subject]? with
            | none => rfl
            | some n =>
                rcases exists_remove?_eq_some hn with ⟨g', hsome⟩
                exact nomatch hremove.symm.trans hsome
          next => rfl
  | clear =>
      have hnone : (g.edit .clear).nodes[path]? = none := Std.TreeMap.getElem?_emptyc
      rw [hnone]
      rfl

theorem ofNode_edited (o : Options) (edits : List Edit) (path : String) :
    Standing.ofNode (edited o edits).nodes[path]? = standing o edits path := by
  induction edits using List.reverseRecOn with
  | nil =>
      have hnone : (edited o []).nodes[path]? = none := Std.TreeMap.getElem?_emptyc
      rw [hnone]
      rfl
  | append_singleton edits e ih =>
      have hedit := (mirrored_edited o edits).ofNode_edit e path
      rw [options_edited, ih] at hedit
      unfold standing edited
      rw [List.foldl_concat, List.foldl_concat]
      exact hedit

/-!
# Listing
-/

theorem mem_modules {n : Node} (h : g.Mirrored) :
    n ∈ g.modules ↔ g.nodes[n.path]? = some n := by
  unfold modules
  rw [List.mem_map]
  constructor
  · rintro ⟨⟨path, n⟩, hmem, rfl⟩
    have hn := Std.TreeMap.mem_toList_iff_getElem?_eq_some.mp hmem
    rw [(h.sound path n hn).path_eq]
    exact hn
  · intro hn
    exact ⟨(n.path, n), Std.TreeMap.mem_toList_iff_getElem?_eq_some.mpr hn, rfl⟩

theorem Mirrored.mem_pathsWhere (h : g.Mirrored) {p : Node -> Bool} :
    path ∈ g.pathsWhere p ↔ exists n, g.nodes[path]? = some n ∧ p n = true := by
  unfold pathsWhere
  rw [List.mem_map]
  constructor
  · rintro ⟨n, hmem, rfl⟩
    rcases List.mem_filter.mp hmem with ⟨hmem, hp⟩
    exact ⟨n, (mem_modules h).mp hmem, hp⟩
  · rintro ⟨n, hn, hp⟩
    have hpath := (h.sound path n hn).path_eq
    refine ⟨n, List.mem_filter.mpr ⟨(mem_modules h).mpr ?_, hp⟩, hpath⟩
    rw [hpath]
    exact hn

theorem Mirrored.map_path_modules (h : g.Mirrored) : g.modules.map Node.path = g.paths := by
  unfold modules paths
  rw [List.map_map, ← Std.TreeMap.map_fst_toList_eq_keys]
  apply List.map_congr_left
  rintro ⟨path, n⟩ hmem
  exact (h.sound path n (Std.TreeMap.mem_toList_iff_getElem?_eq_some.mp hmem)).path_eq

theorem Mirrored.ascending_pathsWhere (h : g.Mirrored) (p : Node -> Bool) :
    (g.pathsWhere p).Pairwise (· < ·) := by
  have hsub : (g.pathsWhere p).Sublist g.paths := by
    rw [← h.map_path_modules]
    exact List.filter_sublist.map Node.path
  exact g.ascending_paths.sublist hsub

theorem Mirrored.mem_placeholders (h : g.Mirrored) :
    path ∈ g.placeholders ↔ Standing.ofNode g.nodes[path]? = .referenced := by
  unfold placeholders
  rw [h.mem_pathsWhere]
  cases hn : g.nodes[path]? with
  | none => exact iff_of_false nofun nofun
  | some n =>
      cases hanalyzed : n.analyzed with
      | true => simp [Standing.ofNode, hanalyzed]
      | false => simp [Standing.ofNode, hanalyzed]

/-!
# Placeholders that nothing imports any more
-/

/-- It is still listed, although no edge leads to it. -/
def Forgotten (g : ModuleGraph) (path : String) : Prop :=
  path ∈ g.placeholders ∧ forall a, ¬ g.HasEdge a path

/-- Whatever is imported and was not scanned is a placeholder that is not forgotten, and the
other way round. -/
theorem Mirrored.remembered_iff (h : g.Mirrored) :
    path ∈ g.placeholders ∧ ¬ g.Forgotten path ↔
      (exists a, g.HasEdge a path) ∧ Standing.ofNode g.nodes[path]? ≠ .scanned := by
  rw [h.mem_placeholders]
  constructor
  · rintro ⟨hstands, hnot⟩
    constructor
    · by_contra hnone
      exact hnot ⟨h.mem_placeholders.mpr hstands, fun a ha => hnone ⟨a, ha⟩⟩
    · rw [hstands]
      exact nofun
  · rintro ⟨⟨a, ha⟩, hstands⟩
    refine ⟨?_, fun hforgotten => hforgotten.2 a ha⟩
    have hsome := h.dependsOn_right ((h.hasEdge_iff a path).mp ha)
    rcases Option.isSome_iff_exists.mp hsome with ⟨n, hn⟩
    rw [hn] at hstands ⊢
    exact if_neg fun hanalyzed => hstands (if_pos hanalyzed)

theorem Mirrored.hasEdge_edit (h : g.Mirrored) {e : Edit} {a b : String} (he : e ≠ .clear)
    (ha : e.subject? ≠ some a) (hb : e.subject? ≠ some b) (hedge : g.HasEdge a b) :
    (g.edit e).HasEdge a b := by
  cases e with
  | add now subject imports exports =>
      apply (h.hasEdge_add now subject imports exports a b).mpr
      rw [if_neg fun heq => ha (congrArg some heq.symm)]
      exact hedge
  | remove subject =>
      show ((g.remove? subject).getD g).HasEdge a b
      cases hremove : g.remove? subject with
      | none => exact hedge
      | some g' =>
          refine (hasEdge_remove? hremove a b).mpr ⟨⟨?_, ?_⟩, hedge⟩
          · exact fun heq => ha (congrArg some heq.symm)
          · exact fun heq => hb (congrArg some heq.symm)
  | clear => exact absurd rfl he

theorem Mirrored.forgotten_edit (h : g.Mirrored) {e : Edit}
    (hforgotten : (g.edit e).Forgotten path) :
    g.Forgotten path ∨ path ∈ g.placeholders ∧ (exists a, g.HasEdge a path) ∧
      forall a, g.HasEdge a path -> e.subject? = some a := by
  rcases hforgotten with ⟨hlisted, hnobody⟩
  rw [(h.edit e).mem_placeholders, h.ofNode_edit] at hlisted
  rcases Standing.of_after_eq_referenced hlisted with
    ⟨he, hother, hold | ⟨now, subject, imports, exports, rfl, hadmits⟩⟩
  · have hmem := h.mem_placeholders.mpr hold
    have hlost : forall a, g.HasEdge a path -> e.subject? = some a := by
      intro a ha
      by_contra hne
      exact hnobody a (h.hasEdge_edit he hne hother ha)
    by_cases hsome : exists a, g.HasEdge a path
    · exact Or.inr ⟨hmem, hsome, hlost⟩
    · exact Or.inl ⟨hmem, fun a ha => hsome ⟨a, ha⟩⟩
  · -- A new placeholder is imported by the module that was added.
    apply absurd _ (hnobody (Path.normalize subject))
    apply (h.hasEdge_add now subject imports exports _ _).mpr
    rw [if_pos rfl]
    exact mem_targets.mpr (resolves_kept_iff.mpr hadmits)

/-- However a graph was edited: the placeholders are listed in ascending order, and a module is
listed if it came in as the target of an import and was not added since.  Where a module is
still imported it is listed exactly if it was not added.  The others are placeholders whose
last importer was scanned again or removed. -/
theorem placeholders_edited (o : Options) (edits : List Edit) :
    let g := edited o edits
    g.placeholders.Pairwise (· < ·) ∧
    (forall path, path ∈ g.placeholders ↔ standing o edits path = .referenced) ∧
    (forall path, path ∈ g.placeholders ∧ ¬ g.Forgotten path ↔
      (exists a, g.HasEdge a path) ∧ standing o edits path ≠ .scanned) ∧
    forall e path, (g.edit e).Forgotten path ->
      g.Forgotten path ∨ path ∈ g.placeholders ∧ (exists a, g.HasEdge a path) ∧
        forall a, g.HasEdge a path -> e.subject? = some a := by
  intro g
  have hg : g.Mirrored := mirrored_edited o edits
  refine ⟨hg.ascending_pathsWhere _, ?_, ?_, ?_⟩
  · intro path
    rw [← ofNode_edited]
    exact hg.mem_placeholders
  · intro path
    rw [← ofNode_edited]
    exact hg.remembered_iff
  · exact fun e path hforgotten => hg.forgotten_edit hforgotten

/-- The second scan of a module no longer finds its import, and the target is still listed. -/
theorem forgotten_rescanned :
    let link := fun target => { Import.ofSource target with resolved := some target }
    let o : Options := { trackTypeImports := true, includeInstalled := false }
    let edits : List Edit := [.add ⟨0, 0⟩ "a" [link "b"] [], .add ⟨1, 0⟩ "a" [] []]
    (edited o edits).placeholders = ["b"] ∧ (edited o edits).edges = [] ∧
      ¬ forall (o : Options) (edits : List Edit) (path : String),
        path ∈ (edited o edits).placeholders ↔
          (exists a, (edited o edits).HasEdge a path) ∧ standing o edits path ≠ .scanned := by
  intro link o edits
  have hlisted : (edited o edits).placeholders = ["b"] := by decide +kernel
  have hedges : (edited o edits).edges = [] := by decide +kernel
  refine ⟨hlisted, hedges, ?_⟩
  intro hexact
  have hmem : "b" ∈ (edited o edits).placeholders := hlisted ▸ List.mem_cons_self
  rcases ((hexact o edits "b").mp hmem).1 with ⟨a, e, he, _⟩
  rw [hedges] at he
  cases he

end ModuleGraph
end Graph
end CodeSurvey
