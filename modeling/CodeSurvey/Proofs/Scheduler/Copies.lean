import CodeSurvey.Scheduler.Registry
import Mathlib.Data.List.Nodup

/-!
# Registries and their copies

Registries are made, copied and used in any order, and each goes its own way.  Whom a
registry tells is settled by what was done with it, and with the one that it was copied from
until then.  Nothing that is done with any other registry has a say in it.
-/

namespace CodeSurvey
namespace Scheduler
namespace Registry

/-!
# What was done with a registry
-/

inductive Deed (b : Type) where
  | subscribed (token : Token) (observer : b)
  | unsubscribed (token : Token)

namespace Deed

def takesBack (token : Token) : Deed b -> Bool
  | .subscribed _ _ => false
  | .unsubscribed other => other = token

def issued? : Deed b -> Option Token
  | .subscribed token _ => some token
  | .unsubscribed _ => none

/-- All tokens that were given out, in their order. -/
def issued (deeds : List (Deed b)) : List Token :=
  deeds.filterMap issued?

/-- The subscriptions that were not taken back since, in their order. -/
def standing : List (Deed b) -> List (Token × b)
  | [] => []
  | .subscribed token observer :: later =>
      if later.any (takesBack token) then standing later
      else (token, observer) :: standing later
  | .unsubscribed _ :: later => standing later

variable {deeds : List (Deed b)} {token : Token} {observer : b}

theorem standing_concat_subscribed (deeds : List (Deed b)) (token : Token) (observer : b) :
    standing (deeds ++ [.subscribed token observer]) =
      standing deeds ++ [(token, observer)] := by
  induction deeds with
  | nil => rfl
  | cons deed deeds ih =>
      cases deed with
      | unsubscribed other => exact ih
      | subscribed other first =>
          have hsame : (deeds ++ [subscribed token observer]).any (takesBack other) =
              deeds.any (takesBack other) := by simp [takesBack]
          rw [List.cons_append, standing, standing, hsame, ih]
          split
          · rfl
          · rfl

theorem standing_concat_unsubscribed (deeds : List (Deed b)) (token : Token) :
    standing (deeds ++ [.unsubscribed token]) =
      (standing deeds).filter fun o => o.1 ≠ token := by
  induction deeds with
  | nil => rfl
  | cons deed deeds ih =>
      cases deed with
      | unsubscribed other => exact ih
      | subscribed other first =>
          have hmore : (deeds ++ [unsubscribed token]).any (takesBack other) =
              (deeds.any (takesBack other) || decide (token = other)) := by simp [takesBack]
          rw [List.cons_append, standing, standing, hmore, ih]
          by_cases hother : token = other
          · subst hother
            cases deeds.any (takesBack token) with
            | true => simp
            | false => simp
          · cases deeds.any (takesBack other) with
            | true => simp
            | false => simp [hother, Ne.symm hother]

theorem standing_sublist_issued (deeds : List (Deed b)) :
    ((standing deeds).map Prod.fst).Sublist (issued deeds) := by
  induction deeds with
  | nil => exact .slnil
  | cons deed deeds ih =>
      cases deed with
      | unsubscribed other => exact ih
      | subscribed other first =>
          rw [standing]
          split
          · exact ih.cons other
          · exact ih.cons_cons other

theorem issued_concat (deeds : List (Deed b)) (deed : Deed b) :
    issued (deeds ++ [deed]) = issued deeds ++ (issued? deed).toList := by
  unfold issued
  rw [List.filterMap_append]
  cases deed with
  | subscribed token observer => rfl
  | unsubscribed token => rfl

end Deed

/-!
# Families
-/

/-- A registry with its past: what was done with it and, before it was copied, with the one
that it comes from. -/
structure Member (b : Type) where
  registry : Registry b
  deeds : List (Deed b)

inductive Use (b : Type) where
  | create
  /-- Copy the registry in a place; the copy comes last. -/
  | copy (place : Nat)
  | subscribe (place : Nat) (observer : b)
  | unsubscribe (place : Nat) (token : Token)
  | broadcast (place : Nat) (e : Event)

/-- It changes who is told by the registry in a place. -/
def Use.Changes (place : Nat) : Use b -> Prop
  | .subscribe other _ | .unsubscribe other _ => other = place
  | .create | .copy _ | .broadcast _ _ => False

abbrev Family (b : Type) := List (Member b)

namespace Member

def subscribe (x : Member b) (observer : b) : Member b :=
  let (registry, token) := x.registry.subscribe observer
  { registry, deeds := x.deeds ++ [.subscribed token observer] }

def unsubscribe (x : Member b) (token : Token) : Member b :=
  { registry := (x.registry.unsubscribe token).1, deeds := x.deeds ++ [.unsubscribed token] }

end Member

namespace Family

def use (f : Family b) : Use b -> Family b
  | .create => f ++ [{ registry := .empty, deeds := [] }]
  | .copy place => f ++ f[place]?.toList
  | .subscribe place observer => f.modify place (·.subscribe observer)
  | .unsubscribe place token => f.modify place (·.unsubscribe token)
  -- Whoever is told may do what he likes, but not to the registry that tells him.
  | .broadcast _ _ => f

def run (f : Family b) (uses : List (Use b)) : Family b :=
  uses.foldl use f

end Family

/-!
# One registry
-/

namespace Member

variable {x : Member b} {token : Token}

/-- The tokens were given out in the order of their numbers, from 1 on, and the registry holds
the subscriptions that were not taken back. -/
structure Booked (x : Member b) : Prop where
  issued : (Deed.issued x.deeds).map Token.number = List.range' 1 x.registry.lastToken
  observers : x.registry.observers = Deed.standing x.deeds

theorem booked_empty : Booked ({ registry := .empty, deeds := [] } : Member b) where
  issued := rfl
  observers := rfl

theorem Booked.subscribe (h : x.Booked) (observer : b) : (x.subscribe observer).Booked where
  issued := by
    have hnext : List.range' 1 (x.registry.lastToken + 1) =
        List.range' 1 x.registry.lastToken ++ [x.registry.lastToken + 1] := by
      rw [List.range'_concat, Nat.one_mul, Nat.add_comm 1]
    show (Deed.issued (x.deeds ++ [_])).map Token.number = List.range' 1 (x.registry.lastToken + 1)
    rw [Deed.issued_concat, List.map_append, h.issued, hnext]
    rfl
  observers := by
    show x.registry.observers ++ [_] = Deed.standing (x.deeds ++ [_])
    rw [Deed.standing_concat_subscribed, h.observers]

theorem Booked.unsubscribe (h : x.Booked) (token : Token) : (x.unsubscribe token).Booked where
  issued := by
    show (Deed.issued (x.deeds ++ [_])).map Token.number = List.range' 1 x.registry.lastToken
    rw [Deed.issued_concat, ← h.issued]
    exact congrArg (List.map Token.number) (List.append_nil _)
  observers := by
    show x.registry.observers.filter _ = Deed.standing (x.deeds ++ [_])
    rw [Deed.standing_concat_unsubscribed, h.observers]

theorem Booked.issued_nodup (h : x.Booked) : (Deed.issued x.deeds).Nodup := by
  apply List.Nodup.of_map Token.number
  rw [h.issued]
  exact List.nodup_range'

theorem Booked.number_le (h : x.Booked) (htoken : token ∈ Deed.issued x.deeds) :
    token.number ≤ x.registry.lastToken := by
  have hmem : token.number ∈ (Deed.issued x.deeds).map Token.number := List.mem_map_of_mem htoken
  rw [h.issued, List.mem_range'_1] at hmem
  omega

theorem Booked.tokens_sublist (h : x.Booked) :
    x.registry.tokens.Sublist (Deed.issued x.deeds) := by
  unfold tokens
  rw [h.observers]
  exact Deed.standing_sublist_issued x.deeds

end Member

variable {r : Registry b} {token : Token}

theorem filter_ne_eq_self {observers : List (Token × b)} (h : token ∉ observers.map Prod.fst) :
    (observers.filter fun o => o.1 ≠ token) = observers := by
  apply List.filter_eq_self.mpr
  intro o ho
  apply decide_eq_true
  rintro rfl
  exact h (List.mem_map_of_mem ho)

theorem unsubscribe_of_not_mem (h : token ∉ r.tokens) : r.unsubscribe token = (r, false) := by
  unfold unsubscribe
  rw [filter_ne_eq_self h]
  simp

/-- Where the tokens are distinct, one observer goes, and the others stay in their order. -/
theorem unsubscribe_of_mem (hnodup : r.tokens.Nodup) {before after : List (Token × b)}
    {observer : b} (hobservers : r.observers = before ++ (token, observer) :: after) :
    r.unsubscribe token = ({ r with observers := before ++ after }, true) := by
  unfold tokens at hnodup
  rw [hobservers, List.map_append, List.map_cons, List.nodup_middle, ← List.map_append,
    List.nodup_cons] at hnodup
  have hleft : (r.observers.filter fun o => o.1 ≠ token) = before ++ after := by
    rw [hobservers, List.filter_append, List.filter_cons_of_neg (by simp), ← List.filter_append]
    exact filter_ne_eq_self hnodup.1
  have hshorter : (before ++ after).length ≠ r.observers.length := by
    rw [hobservers, List.length_append, List.length_append, List.length_cons]
    omega
  unfold unsubscribe
  rw [hleft]
  exact congrArg (Prod.mk _) (decide_eq_true hshorter)

/-- A registry does what its past says. -/
structure Member.Faithful (x : Member b) : Prop where
  nodup : x.registry.tokens.Nodup
  le_last : forall token, token ∈ x.registry.tokens -> token.number ≤ x.registry.lastToken
  fresh : forall observer, (x.registry.subscribe observer).2 ∉ Deed.issued x.deeds
  /-- Each subscription that stands is told once, in the order of the subscriptions. -/
  broadcast : forall {s : Type} (tell : s -> b -> Event -> s) (state : s) (e : Event),
    x.registry.broadcast tell state e =
      ((Deed.standing x.deeds).map Prod.snd).foldl (fun state o => tell state o e) state
  found : forall token, (x.registry.unsubscribe token).2 = true ↔ token ∈ x.registry.tokens
  held : x.registry.tokens = (Deed.standing x.deeds).map Prod.fst
  removed : forall token, token ∈ x.registry.tokens -> exists before observer after,
    x.registry.observers = before ++ (token, observer) :: after ∧
      (x.registry.unsubscribe token).1 = { x.registry with observers := before ++ after }
  unknown : forall token, token ∉ x.registry.tokens ->
    (x.registry.unsubscribe token).1 = x.registry

theorem Member.Booked.faithful {x : Member b} (h : x.Booked) : x.Faithful := by
  have hnodup : x.registry.tokens.Nodup := h.issued_nodup.sublist h.tokens_sublist
  have hremoved : forall token, token ∈ x.registry.tokens -> exists before observer after,
      x.registry.observers = before ++ (token, observer) :: after ∧
        x.registry.unsubscribe token =
          ({ x.registry with observers := before ++ after }, true) := by
    intro token htoken
    rcases List.mem_map.mp htoken with ⟨⟨_, observer⟩, ho, rfl⟩
    rcases List.append_of_mem ho with ⟨before, after, hobservers⟩
    exact ⟨before, observer, after, hobservers, unsubscribe_of_mem hnodup hobservers⟩
  constructor
  case nodup => exact hnodup
  case le_last => exact fun token htoken => h.number_le (h.tokens_sublist.subset htoken)
  case fresh =>
    intro observer hissued
    exact absurd (h.number_le hissued) (Nat.not_succ_le_self _)
  case broadcast =>
    intro s tell state e
    rw [← h.observers, List.foldl_map]
    rfl
  case found =>
    intro token
    by_cases htoken : token ∈ x.registry.tokens
    · rcases hremoved token htoken with ⟨_, _, _, _, hunsubscribe⟩
      rw [hunsubscribe]
      exact iff_of_true rfl htoken
    · rw [unsubscribe_of_not_mem htoken]
      exact iff_of_false Bool.false_ne_true htoken
  case held => rw [← h.observers]; rfl
  case removed =>
    intro token htoken
    rcases hremoved token htoken with ⟨before, observer, after, hobservers, hunsubscribe⟩
    exact ⟨before, observer, after, hobservers, congrArg Prod.fst hunsubscribe⟩
  case unknown => exact fun token htoken => congrArg Prod.fst (unsubscribe_of_not_mem htoken)

/-!
# All registries
-/

namespace Family

variable {f : Family b}

theorem booked_use (h : forall x, x ∈ f -> x.Booked) (u : Use b) :
    forall x, x ∈ f.use u -> x.Booked := by
  have hmodify : forall (place : Nat) (change : Member b -> Member b),
      (forall x : Member b, x.Booked -> (change x).Booked) ->
        forall x, x ∈ f.modify place change -> x.Booked := by
    intro place change hchange x hx
    rcases List.getElem_of_mem hx with ⟨i, hi, rfl⟩
    rw [List.length_modify] at hi
    rw [List.getElem_modify]
    split
    · exact hchange _ (h _ (List.getElem_mem hi))
    · exact h _ (List.getElem_mem hi)
  cases u with
  | create =>
      intro x hx
      cases List.mem_append.mp hx with
      | inl hx => exact h x hx
      | inr hx => exact List.mem_singleton.mp hx ▸ Member.booked_empty
  | copy place =>
      intro x hx
      cases List.mem_append.mp hx with
      | inl hx => exact h x hx
      | inr hx => exact h x (List.mem_of_getElem? (Option.mem_toList.mp hx))
  | subscribe place observer => exact hmodify place _ fun x hx => hx.subscribe observer
  | unsubscribe place token => exact hmodify place _ fun x hx => hx.unsubscribe token
  | broadcast place e => exact h

theorem booked_run (h : forall x, x ∈ f -> x.Booked) (uses : List (Use b)) :
    forall x, x ∈ f.run uses -> x.Booked := by
  induction uses generalizing f with
  | nil => exact h
  | cons u uses ih => exact ih (booked_use h u)

theorem getElem?_modify_of_ne {place other : Nat} (change : Member b -> Member b)
    (hne : other ≠ place) : (f.modify other change)[place]? = f[place]? := by
  rw [List.getElem?_modify]
  simp [hne]

theorem getElem?_use_of_not_changes {place : Nat} {x : Member b} {u : Use b}
    (hx : f[place]? = some x) (hu : ¬ u.Changes place) : (f.use u)[place]? = some x := by
  have hplace : place < f.length := (List.getElem?_eq_some_iff.mp hx).1
  cases u with
  | create => exact (List.getElem?_append_left hplace).trans hx
  | copy other => exact (List.getElem?_append_left hplace).trans hx
  | subscribe other observer => exact (getElem?_modify_of_ne _ hu).trans hx
  | unsubscribe other token => exact (getElem?_modify_of_ne _ hu).trans hx
  | broadcast other e => exact hx

theorem getElem?_run_of_not_changes {place : Nat} {x : Member b} {uses : List (Use b)}
    (hx : f[place]? = some x) (huses : forall u, u ∈ uses -> ¬ u.Changes place) :
    (f.run uses)[place]? = some x := by
  induction uses generalizing f with
  | nil => exact hx
  | cons u uses ih =>
      have hfirst := getElem?_use_of_not_changes hx (huses u List.mem_cons_self)
      exact ih hfirst fun u' hu' => huses u' (List.mem_cons_of_mem u hu')

/-- However registries were made, copied and used: each of them does what its own past says,
and goes on to do so whatever is done with the others. -/
theorem faithful_run (uses : List (Use b)) (place : Nat) (x : Member b) :
    (run [] uses)[place]? = some x ->
      x.Faithful ∧ forall later, (forall u, u ∈ later -> ¬ u.Changes place) ->
        ((run [] uses).run later)[place]? = some x := by
  intro hx
  have hbooked : forall y, y ∈ run [] uses -> y.Booked :=
    booked_run (fun _ hy => absurd hy List.not_mem_nil) uses
  exact ⟨(hbooked x (List.mem_of_getElem? hx)).faithful,
    fun later hlater => getElem?_run_of_not_changes hx hlater⟩

/-- A copy gives out a token once more that the other registry has given out since, and to
take it back there changes nothing here. -/
theorem faithful_copied :
    let uses : List (Use String) :=
      [.create, .subscribe 0 "a", .subscribe 0 "b", .copy 0, .unsubscribe 0 ⟨1⟩,
        .subscribe 0 "c", .subscribe 1 "d", .unsubscribe 1 ⟨2⟩]
    let later : List (Use String) :=
      [.unsubscribe 0 ⟨3⟩, .subscribe 0 "e", .broadcast 0 .drained]
    exists x, (run [] uses)[1]? = some x ∧ x.Faithful ∧
      ((run [] uses).run later)[1]? = some x ∧
      x.registry.observers = [(⟨1⟩, "a"), (⟨3⟩, "d")] := by
  intro uses later
  let x : Member String :=
    { registry := { lastToken := 3, observers := [(⟨1⟩, "a"), (⟨3⟩, "d")] }
      deeds :=
        [.subscribed ⟨1⟩ "a", .subscribed ⟨2⟩ "b", .subscribed ⟨3⟩ "d", .unsubscribed ⟨2⟩] }
  have hx : (run [] uses)[1]? = some x := rfl
  have hlater : forall u, u ∈ later -> ¬ u.Changes 1 := by simp [later, Use.Changes]
  have hfaithful := faithful_run uses 1 x hx
  exact ⟨x, hx, hfaithful.1, hfaithful.2 later hlater, rfl⟩

end Family
end Registry
end Scheduler
end CodeSurvey
