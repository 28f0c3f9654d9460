import Mathlib.Data.List.Chain
import Mathlib.Logic.Relation

/-!
# Cycles and orders of a relation

A relation on paths is read as "the first leads on to the second".  It has a cycle
exactly when some path leads back to itself, and an order that puts every path behind
those it leads on to shows that it has none.
-/

namespace CodeSurvey
namespace Graph

open Relation

/-- Pairwise distinct paths of which each leads on to the next and the last to the first. -/
structure IsCycle (r : String -> String -> Prop) (cycle : List String) : Prop where
  ne_nil : cycle ≠ []
  nodup : cycle.Nodup
  chain : cycle.IsChain r
  closed : forall first, cycle.head? = some first ->
    forall last, cycle.getLast? = some last -> r last first

/-- Each of the two paths leads to the other, or they are the same. -/
def Connected (r : String -> String -> Prop) (a b : String) : Prop :=
  ReflTransGen r a b ∧ ReflTransGen r b a

def Acyclic (r : String -> String -> Prop) : Prop :=
  forall path, ¬ TransGen r path path

/-- Every path in the list comes behind the paths that it leads on to. -/
def Ordered (r : String -> String -> Prop) (order : List String) : Prop :=
  forall before path after, order = before ++ path :: after ->
    forall next, r path next -> next ∈ before

namespace IsCycle

variable {r : String -> String -> Prop}

theorem reflTransGen_of_isChain {first last : String} {rest : List String}
    (h : (first :: rest).IsChain r) (hlast : (first :: rest).getLast? = some last) :
    ReflTransGen r first last := by
  induction rest generalizing first with
  | nil =>
      cases hlast
      exact ReflTransGen.refl
  | cons next rest ih =>
      have hstep := List.isChain_cons_cons.mp h
      rw [List.getLast?_cons_cons] at hlast
      exact ReflTransGen.head hstep.1 (ih hstep.2 hlast)

theorem transGen_head {first : String} {rest : List String} (h : IsCycle r (first :: rest)) :
    TransGen r first first := by
  cases hlast : (first :: rest).getLast? with
  | none => exact absurd (List.getLast?_eq_none_iff.mp hlast) (List.cons_ne_nil first rest)
  | some last =>
      exact TransGen.tail' (reflTransGen_of_isChain h.chain hlast)
        (h.closed first rfl last hlast)

theorem not_acyclic {cycle : List String} (h : IsCycle r cycle) : ¬ Acyclic r := by
  cases cycle with
  | nil => exact absurd rfl h.ne_nil
  | cons first rest => exact fun hacyclic => hacyclic first h.transGen_head

theorem reflTransGen_of_mem_of_isChain {first path : String} {rest : List String}
    (h : (first :: rest).IsChain r) (hpath : path ∈ first :: rest) :
    ReflTransGen r first path := by
  induction rest generalizing first with
  | nil =>
      rw [List.mem_singleton.mp hpath]
  | cons next rest ih =>
      have hstep := List.isChain_cons_cons.mp h
      cases hpath with
      | head => exact ReflTransGen.refl
      | tail _ hrest => exact ReflTransGen.head hstep.1 (ih hstep.2 hrest)

theorem reflTransGen_getLast?_of_isChain {path last : String} {paths : List String}
    (h : paths.IsChain r) (hpath : path ∈ paths) (hlast : paths.getLast? = some last) :
    ReflTransGen r path last := by
  induction paths with
  | nil => cases hpath
  | cons first rest ih =>
      cases hpath with
      | head => exact reflTransGen_of_isChain h hlast
      | tail _ hrest =>
          cases rest with
          | nil => cases hrest
          | cons next rest =>
              rw [List.getLast?_cons_cons] at hlast
              exact ih (List.isChain_cons_cons.mp h).2 hrest hlast

theorem connected {cycle : List String} (h : IsCycle r cycle) {a b : String}
    (ha : a ∈ cycle) (hb : b ∈ cycle) : Connected r a b := by
  cases cycle with
  | nil => cases ha
  | cons first rest =>
      cases hlast : (first :: rest).getLast? with
      | none =>
          exact absurd (List.getLast?_eq_none_iff.mp hlast) (List.cons_ne_nil first rest)
      | some last =>
          have hround : forall p q, p ∈ first :: rest -> q ∈ first :: rest ->
              ReflTransGen r p q := by
            intro p q hp hq
            have hend := reflTransGen_getLast?_of_isChain h.chain hp hlast
            have hstart := reflTransGen_of_mem_of_isChain h.chain hq
            exact hend.trans (ReflTransGen.head (h.closed first rfl last hlast) hstart)
          exact ⟨hround a b ha hb, hround b a hb ha⟩

end IsCycle

theorem Connected.trans {r : String -> String -> Prop} {a b c : String}
    (hab : Connected r a b) (hbc : Connected r b c) : Connected r a c :=
  ⟨hab.1.trans hbc.1, hbc.2.trans hab.2⟩

/-- A way back to a path that is cut by leaving out the links of some paths comes through
one of these paths. -/
theorem exists_connected_of_transGen_self {r : String -> String -> Prop}
    {left : String -> Prop} {path : String} (hself : TransGen r path path)
    (hcut : ¬ TransGen (fun a b => r a b ∧ ¬ left a) path path) :
    exists q, left q ∧ Connected r path q := by
  apply Classical.byContradiction
  intro hnone
  have hkept : forall q, Connected r path q -> ¬ left q :=
    fun q hq hleft => hnone ⟨q, hleft, hq⟩
  have hway : forall q, TransGen r path q -> ReflTransGen r q path ->
      TransGen (fun a b => r a b ∧ ¬ left a) path q := by
    intro q hq hback
    induction hq with
    | single hstep =>
        exact TransGen.single ⟨hstep, hkept path ⟨ReflTransGen.refl, ReflTransGen.refl⟩⟩
    | tail hq hstep ih =>
        have hreturn := ReflTransGen.head hstep hback
        exact TransGen.tail (ih hreturn) ⟨hstep, hkept _ ⟨hq.to_reflTransGen, hreturn⟩⟩
  exact hcut (hway path hself ReflTransGen.refl)

/-!
# Lists that grow at their front

A search lists a path when it is done with everything behind it, so it builds the reverse
of an order.
-/

/-- Every path in the list comes in front of the paths that it leads on to. -/
def Settled (r : String -> String -> Prop) : List String -> Prop
  | [] => True
  | path :: below => (forall next, r path next -> next ∈ below) ∧ Settled r below

namespace Settled

variable {r r' : String -> String -> Prop}

theorem mono (hr : forall a b, r' a b -> r a b) {settled : List String}
    (h : Settled r settled) : Settled r' settled := by
  induction settled with
  | nil => trivial
  | cons top below ih => exact ⟨fun next hnext => h.1 next (hr _ _ hnext), ih h.2⟩

theorem mem_of_mem {settled : List String} (h : Settled r settled) {path next : String}
    (hpath : path ∈ settled) (hnext : r path next) : next ∈ settled := by
  induction settled with
  | nil => cases hpath
  | cons top below ih =>
      rcases List.mem_cons.mp hpath with rfl | hbelow
      · exact List.mem_cons_of_mem _ (h.1 next hnext)
      · exact List.mem_cons_of_mem _ (ih h.2 hbelow)

theorem mem_of_transGen {path next : String} {below : List String}
    (h : Settled r (path :: below)) (hnext : TransGen r path next) : next ∈ below := by
  induction hnext with
  | single hstep => exact h.1 _ hstep
  | tail _ hstep ih => exact h.2.mem_of_mem ih hstep

theorem not_transGen_self {settled : List String} (h : Settled r settled)
    (hnodup : settled.Nodup) {path : String} (hpath : path ∈ settled) :
    ¬ TransGen r path path := by
  induction settled with
  | nil => cases hpath
  | cons top below ih =>
      have htop := List.nodup_cons.mp hnodup
      rcases List.mem_cons.mp hpath with rfl | hbelow
      · exact fun hself => htop.1 (h.mem_of_transGen hself)
      · exact ih h.2 htop.2 hbelow

theorem ordered_reverse {settled : List String} (h : Settled r settled) :
    Ordered r settled.reverse := by
  induction settled with
  | nil =>
      intro before path after heq
      have hne := List.append_ne_nil_of_right_ne_nil before (List.cons_ne_nil path after)
      exact absurd heq.symm hne
  | cons top below ih =>
      intro before path after heq next hnext
      rw [List.reverse_cons] at heq
      rcases List.eq_nil_or_concat after with rfl | ⟨after, last, rfl⟩
      · have hparts := List.append_inj' heq rfl
        cases hparts.2
        rw [← hparts.1]
        exact List.mem_reverse.mpr (h.1 next hnext)
      · rw [List.concat_eq_append, ← List.cons_append, ← List.append_assoc] at heq
        exact ih h.2 before path after (List.append_inj' heq rfl).1 next hnext

end Settled
end Graph
end CodeSurvey
