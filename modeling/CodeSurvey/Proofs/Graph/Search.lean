import CodeSurvey.Graph.Links
import CodeSurvey.Proofs.Graph.Cyclic
import CodeSurvey.Proofs.Graph.Editing
import Mathlib.Data.List.Nodup

/-!
# Searching a graph

A search keeps the way from a root to the path it is at, and it is done with a path when
it is done with all that is behind it.  The paths it is done with are always an order of
their own, and a path that is met again on the way closes a cycle.

A search that ends at the first cycle has to settle all links; one that goes on has to
settle those that belong to no cycle it has found.  The links to settle are a parameter.
-/

namespace CodeSurvey
namespace Graph

namespace Links

/-- A path leads on to those that follow it. -/
def Leads (l : Links) (a b : String) : Prop :=
  b ∈ l.next a

/-- Every path that is led on to is listed, and each is listed once. -/
structure Whole (l : Links) : Prop where
  nodup : l.paths.Nodup
  isSome_of_mem : forall path, path ∈ l.paths -> (l.next? path).isSome
  isSome_of_leads : forall a b, l.Leads a b -> (l.next? b).isSome

namespace Whole

variable {l : Links}

theorem next?_eq_some (h : l.Whole) {path : String} (hpath : path ∈ l.paths) :
    l.next? path = some (l.next path) := by
  unfold next
  cases hnext : l.next? path with
  | none =>
      have hsome := h.isSome_of_mem path hpath
      rw [hnext] at hsome
      cases hsome
  | some next => rfl

end Whole

theorem leads_iff_mem {l : Links} {a b : String} {next : List String}
    (hnext : l.next? a = some next) : l.Leads a b ↔ b ∈ next := by
  unfold Leads Links.next
  rw [hnext, Option.getD_some]

theorem mem_paths_of_leads {l : Links} {a b : String} (hab : l.Leads a b) : a ∈ l.paths := by
  cases hnext : l.next? a with
  | none =>
      unfold Leads next at hab
      rw [hnext] at hab
      cases hab
  | some next => exact l.known a (by rw [hnext]; rfl)

/-!
# The way of a search

The way is a stack of frames; `above` is the path of the frame on top of those that are
looked at, if there is one.  Of the paths to which the links to settle lead from a
frame's path, each is still to try, or listed, or the one above.
-/

def Way (l : Links) (r : String -> String -> Prop) (finished : List String) :
    Option String -> List Frame -> Prop
  | _, [] => True
  | above, f :: below =>
      (forall next, r f.path next ->
        next ∈ f.rest ∨ next ∈ finished ∨ above = some next) ∧
      (forall next, next ∈ f.rest -> l.Leads f.path next) ∧
      (forall next, above = some next -> l.Leads f.path next) ∧
      Way l r finished (some f.path) below

namespace Way

variable {l : Links} {r r' : String -> String -> Prop} {finished finished' : List String}

theorem mono (hr : forall a b, r' a b -> r a b) (hsub : finished ⊆ finished')
    {above : Option String} {stack : List Frame} (h : Way l r finished above stack) :
    Way l r' finished' above stack := by
  induction stack generalizing above with
  | nil => trivial
  | cons f below ih =>
      refine ⟨?_, h.2.1, h.2.2.1, ih h.2.2.2⟩
      intro next hnext
      rcases h.1 next (hr _ _ hnext) with hrest | hdone | habove
      · exact Or.inl hrest
      · exact Or.inr (Or.inl (hsub hdone))
      · exact Or.inr (Or.inr habove)

theorem start (hr : forall a b, r a b -> l.Leads a b) {root : String} {next : List String}
    (hnext : l.next? root = some next) : Way l r finished none [⟨root, next⟩] := by
  exact ⟨fun q hq => Or.inl ((leads_iff_mem hnext).mp (hr _ _ hq)),
    fun q hq => (leads_iff_mem hnext).mpr hq, (fun q hq => nomatch hq), trivial⟩

theorem of_above_mem {path : String} {stack : List Frame} (hpath : path ∈ finished)
    (h : Way l r finished (some path) stack) : Way l r finished none stack := by
  cases stack with
  | nil => trivial
  | cons f below =>
      refine ⟨?_, h.2.1, (fun next hnext => nomatch hnext), h.2.2.2⟩
      intro next hnext
      rcases h.1 next hnext with hrest | hdone | habove
      · exact Or.inl hrest
      · exact Or.inr (Or.inl hdone)
      · exact Or.inr (Or.inl (Option.some.inj habove ▸ hpath))

theorem skip {path dep : String} {rest : List String} {below : List Frame}
    (hdep : r path dep -> dep ∈ finished)
    (h : Way l r finished none (⟨path, dep :: rest⟩ :: below)) :
    Way l r finished none (⟨path, rest⟩ :: below) := by
  refine ⟨?_, ?_, h.2.2.1, h.2.2.2⟩
  · intro next hnext
    rcases h.1 next hnext with hrest | hdone | habove
    · rcases List.mem_cons.mp hrest with rfl | hrest
      · exact Or.inr (Or.inl (hdep hnext))
      · exact Or.inl hrest
    · exact Or.inr (Or.inl hdone)
    · cases habove
  · intro next hnext
    exact h.2.1 next (List.mem_cons_of_mem dep hnext)

theorem push (hr : forall a b, r a b -> l.Leads a b) {path dep : String}
    {rest next : List String} {below : List Frame} (hnext : l.next? dep = some next)
    (h : Way l r finished none (⟨path, dep :: rest⟩ :: below)) :
    Way l r finished none (⟨dep, next⟩ :: ⟨path, rest⟩ :: below) := by
  refine ⟨?_, ?_, (fun q hq => nomatch hq), ?_, ?_, ?_, h.2.2.2⟩
  · intro q hq
    exact Or.inl ((leads_iff_mem hnext).mp (hr _ _ hq))
  · intro q hq
    exact (leads_iff_mem hnext).mpr hq
  · intro q hq
    rcases h.1 q hq with hrest | hdone | habove
    · rcases List.mem_cons.mp hrest with rfl | hrest
      · exact Or.inr (Or.inr rfl)
      · exact Or.inl hrest
    · exact Or.inr (Or.inl hdone)
    · cases habove
  · intro q hq
    exact h.2.1 q (List.mem_cons_of_mem dep hq)
  · intro q hq
    cases hq
    exact h.2.1 dep List.mem_cons_self

theorem isChain {above : Option String} {stack : List Frame}
    (h : Way l r finished above stack) :
    (stack.map Frame.path).IsChain fun a b => l.Leads b a := by
  induction stack generalizing above with
  | nil => exact List.IsChain.nil
  | cons f below ih =>
      cases below with
      | nil => exact List.IsChain.singleton _
      | cons g below =>
          exact List.IsChain.cons_cons (h.2.2.2.2.2.1 f.path rfl) (ih h.2.2.2)

end Way
/-!
# Closing a cycle
-/

theorem exists_eq_takeWhile_append {path : String} {paths : List String} (h : path ∈ paths) :
    exists after, paths = (paths.takeWhile (· ≠ path) ++ [path]) ++ after := by
  induction paths with
  | nil => cases h
  | cons top paths ih =>
      by_cases htop : top = path
      · subst htop
        exact ⟨paths, by simp⟩
      · have hmem : path ∈ paths := (List.mem_cons.mp h).resolve_left fun heq => htop heq.symm
        rcases ih hmem with ⟨after, hafter⟩
        refine ⟨after, ?_⟩
        rw [List.takeWhile_cons_of_pos (by simp [htop]), List.cons_append, List.cons_append,
          ← hafter]

theorem isCycle_closedBy {l : Links} {r : String -> String -> Prop}
    {finished : List String} {path dep : String} {rest : List String} {below : List Frame}
    (hway : Way l r finished none (⟨path, dep :: rest⟩ :: below))
    (hnodup : ((⟨path, dep :: rest⟩ :: below).map Frame.path).Nodup)
    (hdep : dep ∈ (⟨path, dep :: rest⟩ :: below).map Frame.path) :
    IsCycle l.Leads (closedBy (⟨path, dep :: rest⟩ :: below) dep) := by
  rcases exists_eq_takeWhile_append hdep with ⟨after, hafter⟩
  have hchain := hway.isChain
  have hhead : ((⟨path, dep :: rest⟩ :: below).map Frame.path).head? = some path := rfl
  unfold closedBy
  generalize ((⟨path, dep :: rest⟩ :: below).map Frame.path).takeWhile (· ≠ dep) = front
    at hafter ⊢
  rw [hafter] at hchain hnodup hhead
  constructor
  · simp
  · exact List.nodup_reverse.mpr hnodup.of_append_left
  · exact List.isChain_reverse.mpr hchain.left_of_append
  · intro first hfirst last hlast
    rw [List.head?_reverse, List.getLast?_append, List.getLast?_singleton, Option.some_or,
      Option.some.injEq] at hfirst
    rw [List.getLast?_reverse] at hlast
    have htop : last = path := by
      cases front with
      | nil => exact Option.some.inj (hlast.symm.trans hhead)
      | cons top front => exact Option.some.inj (hlast.symm.trans hhead)
    subst hfirst htop
    exact hway.2.1 dep List.mem_cons_self

/-!
# What the search keeps
-/

/-- The marks say which paths are listed and which are on the way. -/
structure Searching (l : Links) (r : String -> String -> Prop)
    (marks : Std.TreeMap String Mark) (finished : List String) (stack : List Frame) :
    Prop where
  settled : Settled r finished
  nodup_finished : finished.Nodup
  nodup_stack : (stack.map Frame.path).Nodup
  done_iff : forall path : String, marks[path]? = some .done ↔ path ∈ finished
  underway_iff : forall path : String,
    marks[path]? = some .underway ↔ path ∈ stack.map Frame.path
  listed : forall path, path ∈ finished ∨ path ∈ stack.map Frame.path -> path ∈ l.paths
  way : Way l r finished none stack

namespace Searching

variable {l : Links} {r r' : String -> String -> Prop} {marks : Std.TreeMap String Mark}
  {finished : List String}

theorem empty (l : Links) (r : String -> String -> Prop) : Searching l r ∅ [] [] := by
  have hnone : forall path : String, (∅ : Std.TreeMap String Mark)[path]? = none :=
    fun _ => Std.TreeMap.getElem?_emptyc
  constructor
  · trivial
  · exact List.nodup_nil
  · exact List.nodup_nil
  · intro path
    rw [hnone]
    exact iff_of_false nofun List.not_mem_nil
  · intro path
    rw [hnone]
    exact iff_of_false nofun List.not_mem_nil
  · rintro path (h | h)
    · cases h
    · cases h
  · trivial

theorem pop {path : String} {below : List Frame}
    (h : Searching l r marks finished (⟨path, []⟩ :: below)) :
    Searching l r (marks.insert path .done) (path :: finished) below := by
  have hunder : marks[path]? = some .underway := (h.underway_iff path).mpr List.mem_cons_self
  have hfresh : path ∉ finished := by
    intro hmem
    exact nomatch hunder.symm.trans ((h.done_iff path).mpr hmem)
  have hstack := List.nodup_cons.mp h.nodup_stack
  constructor
  · refine ⟨?_, h.settled⟩
    intro next hnext
    rcases h.way.1 next hnext with hrest | hdone | habove
    · cases hrest
    · exact hdone
    · cases habove
  · exact List.nodup_cons.mpr ⟨hfresh, h.nodup_finished⟩
  · exact hstack.2
  · intro q
    rw [getElem?_insert_eq, List.mem_cons]
    split
    · next hq => exact iff_of_true rfl (Or.inl hq)
    · next hq =>
        rw [h.done_iff]
        exact (or_iff_right hq).symm
  · intro q
    rw [getElem?_insert_eq]
    split
    · next hq =>
        subst hq
        exact iff_of_false nofun hstack.1
    · next hq =>
        rw [h.underway_iff, List.map_cons, List.mem_cons]
        exact or_iff_right hq
  · rintro q (hq | hq)
    · rcases List.mem_cons.mp hq with rfl | hq
      · exact h.listed _ (Or.inr List.mem_cons_self)
      · exact h.listed q (Or.inl hq)
    · exact h.listed q (Or.inr (List.mem_cons_of_mem path hq))
  · exact Way.of_above_mem List.mem_cons_self
      (h.way.2.2.2.mono (fun _ _ hlink => hlink) (List.subset_cons_self path finished))

/-- Between two searches, every path that has a mark is done with. -/
theorem mem_finished_of_contains {path : String} (h : Searching l r marks finished [])
    (hmark : marks.contains path) : path ∈ finished := by
  rw [Std.TreeMap.contains_eq_isSome_getElem?] at hmark
  rcases Option.isSome_iff_exists.mp hmark with ⟨mark, hsome⟩
  cases mark with
  | underway => exact absurd ((h.underway_iff path).mp hsome) List.not_mem_nil
  | done => exact (h.done_iff path).mp hsome

theorem push {dep : String} {next : List String} {stack stack' : List Frame}
    (h : Searching l r marks finished stack) (hnext : l.next? dep = some next)
    (hfree : marks[dep]? = none) (hpaths : stack'.map Frame.path = stack.map Frame.path)
    (hway : Way l r finished none (⟨dep, next⟩ :: stack')) :
    Searching l r (marks.insert dep .underway) finished (⟨dep, next⟩ :: stack') := by
  have hfinished : dep ∉ finished := by
    intro hmem
    exact nomatch hfree.symm.trans ((h.done_iff dep).mpr hmem)
  have hstack : dep ∉ stack.map Frame.path := by
    intro hmem
    exact nomatch hfree.symm.trans ((h.underway_iff dep).mpr hmem)
  constructor
  · exact h.settled
  · exact h.nodup_finished
  · rw [List.map_cons, hpaths]
    exact List.nodup_cons.mpr ⟨hstack, h.nodup_stack⟩
  · intro q
    rw [getElem?_insert_eq]
    split
    · next hq => exact iff_of_false nofun (hq ▸ hfinished)
    · exact h.done_iff q
  · intro q
    rw [getElem?_insert_eq, List.map_cons, hpaths, List.mem_cons]
    split
    · next hq => exact iff_of_true rfl (Or.inl hq)
    · next hq =>
        rw [h.underway_iff]
        exact (or_iff_right hq).symm
  · rw [List.map_cons, hpaths]
    rintro q (hq | hq)
    · exact h.listed q (Or.inl hq)
    · rcases List.mem_cons.mp hq with rfl | hq
      · exact l.known _ (hnext ▸ rfl)
      · exact h.listed q (Or.inr hq)
  · exact hway

theorem skip {path dep : String} {rest : List String} {below : List Frame}
    (h : Searching l r marks finished (⟨path, dep :: rest⟩ :: below))
    (hdep : r path dep -> dep ∈ finished) :
    Searching l r marks finished (⟨path, rest⟩ :: below) :=
  { h with way := h.way.skip hdep }

theorem mono (hr : forall a b, r' a b -> r a b) {stack : List Frame}
    (h : Searching l r marks finished stack) : Searching l r' marks finished stack :=
  { h with
    settled := h.settled.mono hr
    way := h.way.mono hr (List.Subset.refl finished) }

end Searching
end Links

/-!
# The links of a mirrored graph
-/

namespace ModuleGraph

theorem leads_links {g : ModuleGraph} {a b : String} :
    (g.links Node.dependencies).Leads a b ↔ g.DependsOn a b := by
  unfold Links.Leads Links.next links
  cases hn : g.nodes[a]? with
  | none =>
      simp only [hn, Option.map_none, Option.getD_none]
      exact iff_of_false List.not_mem_nil (not_dependsOn_of_getElem?_eq_none hn)
  | some n =>
      simp only [hn, Option.map_some, Option.getD_some]
      rw [dependsOn_iff hn]
      exact PathSet.mem_iff.symm

theorem mem_paths {g : ModuleGraph} {path : String} :
    path ∈ g.paths ↔ (g.nodes[path]?).isSome := by
  unfold paths
  rw [Std.TreeMap.mem_keys, Std.TreeMap.mem_iff_isSome_getElem?]

theorem Mirrored.whole_links {g : ModuleGraph} (hg : g.Mirrored) :
    (g.links Node.dependencies).Whole := by
  constructor
  · exact Std.TreeMap.nodup_keys
  · intro path hpath
    show ((g.nodes[path]?).map _).isSome
    rw [Option.isSome_map]
    exact mem_paths.mp hpath
  · intro a b hab
    show ((g.nodes[b]?).map _).isSome
    rw [Option.isSome_map]
    exact hg.dependsOn_right (leads_links.mp hab)

end ModuleGraph
end Graph
end CodeSurvey
