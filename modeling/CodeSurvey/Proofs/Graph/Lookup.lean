import CodeSurvey.Graph.Basic

/-!
# What is found in a graph

The table of a graph is changed by a few operations only.  For each of them this module
says which module is found at a path afterwards.
-/

namespace CodeSurvey
namespace Graph

namespace PathSet

theorem nodup_toList (s : PathSet) : s.toList.Nodup := by
  apply s.ascending.imp
  intro p q hlt heq
  exact String.lt_irrefl q (heq ▸ hlt)

theorem not_mem_empty (path : String) : path ∉ (∅ : PathSet) :=
  fun h => nomatch mem_iff.mp h

theorem isEmpty_iff {s : PathSet} : s.isEmpty ↔ forall path, path ∉ s := by
  unfold isEmpty
  rw [List.isEmpty_iff]
  exact List.eq_nil_iff_forall_not_mem

theorem erase_eq_self {s : PathSet} {path : String} (h : path ∉ s) : s.erase path = s := by
  have hfilter : s.toList.filter (· ≠ path) = s.toList := by
    apply List.filter_eq_self.mpr
    intro q hq
    exact decide_eq_true fun heq => h (heq ▸ hq)
  cases s
  simp only [erase, mk.injEq]
  exact hfilter

theorem mem_foldl_insert {paths : List String} {s : PathSet} {q : String} :
    q ∈ paths.foldl insert s ↔ q ∈ paths ∨ q ∈ s := by
  induction paths generalizing s with
  | nil => simp
  | cons p paths ih =>
      rw [List.foldl_cons, ih, mem_insert, List.mem_cons, or_assoc, or_left_comm]

@[simp] theorem mem_ofList {paths : List String} {q : String} :
    q ∈ ofList paths ↔ q ∈ paths := by
  unfold ofList
  rw [mem_foldl_insert]
  exact or_iff_left (not_mem_empty q)

end PathSet

/-!
# Single entries
-/

theorem compare_ne_eq {p k : String} (h : p ≠ k) : compare p k ≠ .eq :=
  fun heq => h (Std.LawfulEqOrd.eq_of_compare heq)

theorem getElem?_erase_eq (table : Std.TreeMap String a) (path k : String) :
    (table.erase path)[k]? = if k = path then none else table[k]? := by
  rw [Std.TreeMap.getElem?_erase]
  by_cases hk : path = k
  · simp [hk]
  · simp [compare_ne_eq hk, Ne.symm hk]

theorem getElem?_insert_eq (table : Std.TreeMap String a) (path k : String) (x : a) :
    (table.insert path x)[k]? = if k = path then some x else table[k]? := by
  rw [Std.TreeMap.getElem?_insert]
  by_cases hk : path = k
  · simp [hk]
  · simp [compare_ne_eq hk, Ne.symm hk]

namespace ModuleGraph

/-!
# Changing listed modules
-/

theorem getElem?_updateAll {paths : List String} (hpaths : paths.Nodup)
    (nodes : Std.TreeMap String Node) (f : Node -> Node) (k : String) :
    (updateAll nodes paths f)[k]? =
      if k ∈ paths then nodes[k]?.map f else nodes[k]? := by
  induction paths generalizing nodes with
  | nil => rfl
  | cons p paths ih =>
      have hp := List.nodup_cons.mp hpaths
      show (updateAll (nodes.modify p f) paths f)[k]? = _
      rw [ih hp.2, Std.TreeMap.getElem?_modify]
      by_cases hk : p = k
      · subst hk
        simp [hp.1]
      · simp [compare_ne_eq hk, Ne.symm hk]

theorem getElem?_updateAll_ofList (nodes : Std.TreeMap String Node) (paths : List String)
    (f : Node -> Node) (k : String) :
    (updateAll nodes (PathSet.ofList paths).toList f)[k]? =
      if k ∈ paths then nodes[k]?.map f else nodes[k]? := by
  rw [getElem?_updateAll (PathSet.nodup_toList _)]
  simp only [← PathSet.mem_iff, PathSet.mem_ofList]

theorem getElem?_updateAll_toList {nodes : Std.TreeMap String Node} {s : PathSet}
    {f : Node -> Node} {k : String}
    (hsame : forall n, nodes[k]? = some n -> k ∉ s -> f n = n) :
    (updateAll nodes s.toList f)[k]? = nodes[k]?.map f := by
  rw [getElem?_updateAll s.nodup_toList]
  split
  · rfl
  · next hk =>
      cases hn : nodes[k]? with
      | none => rfl
      | some n => rw [Option.map_some, hsame n hn hk]

/-!
# Placeholders
-/

theorem getElem?_addPlaceholders (nodes : Std.TreeMap String Node) (paths : List String)
    (k : String) :
    (addPlaceholders nodes paths)[k]? =
      if k ∈ paths then some (.placeholder k) else nodes[k]? := by
  induction paths generalizing nodes with
  | nil => rfl
  | cons p paths ih =>
      show (addPlaceholders (nodes.insert p (.placeholder p)) paths)[k]? = _
      rw [ih, getElem?_insert_eq]
      by_cases hk : k = p
      · simp [hk]
      · simp [hk]

theorem mem_missing {nodes : Std.TreeMap String Node} {path t : String}
    {targets : List String} :
    t ∈ missing nodes path targets ↔ t ∈ targets ∧ nodes[t]? = none ∧ t ≠ path := by
  unfold missing
  rw [List.mem_eraseDups, List.mem_filter, Std.TreeMap.contains_eq_isSome_getElem?,
    Bool.and_eq_true, Bool.not_eq_true', Option.isSome_eq_false_iff,
    Option.isNone_iff_eq_none, decide_eq_true_iff]

end ModuleGraph
end Graph
end CodeSurvey
