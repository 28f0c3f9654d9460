import CodeSurvey.Simulation.Run

/-!
# Timelines

A timeline says what happened in a simulation and in which order: who began and who ceased
to listen, which events the scheduler emitted, and which processors were called.  It also
says what everybody ought to have heard, event by event and in the order of subscription.
-/

namespace CodeSurvey
namespace Simulation

open Scheduler (Event TaskId)

inductive Happening where
  | subscribed (listener : Listener)
  | unsubscribed (listener : Listener)
  | emitted (e : Event)
  /-- The processor of an attempt is called. -/
  | called (flight : Flight)

namespace Happening

def event? : Happening -> Option Event
  | .emitted e => some e
  | _ => none

def subscribed? : Happening -> Option Listener
  | .subscribed l => some l
  | _ => none

def start? : Happening -> Option TaskId
  | .emitted (.started id _) => some id
  | _ => none

def input? : Happening -> Option String
  | .called f => some (inputName f.attempt.input)
  | _ => none

def listen (ls : List Listener) : Happening -> List Listener
  | .subscribed l => ls ++ [l]
  | .unsubscribed l => ls.filter (· ≠ l)
  | _ => ls

def tell (ls : List Listener) (h : Happening) : List (Listener × Event) :=
  h.event?.toList.flatMap fun e => ls.map fun l => (l, e)

end Happening

abbrev Timeline := List Happening

namespace Timeline

def events (t : Timeline) : List Event :=
  t.filterMap Happening.event?

def subscribed (t : Timeline) : List Listener :=
  t.filterMap Happening.subscribed?

def starts (t : Timeline) : List TaskId :=
  t.filterMap Happening.start?

def inputs (t : Timeline) : List String :=
  t.filterMap Happening.input?

/-- Who listens after a timeline, in the order of subscription. -/
def listeners (t : Timeline) (ls : List Listener) : List Listener :=
  t.foldl Happening.listen ls

/-- What is told in the course of a timeline to those who listen. -/
def tellings : Timeline -> List Listener -> List (Listener × Event)
  | [], _ => []
  | h :: rest, ls => h.tell ls ++ tellings rest (h.listen ls)

def ofEvents (es : List Event) : Timeline :=
  es.map Happening.emitted

/-- What one listener hears of all that is told. -/
def heard (l : Listener) (told : List (Listener × Event)) : List Event :=
  told.filterMap fun x => if x.1 = l then some x.2 else none

variable {l : Listener} {ls : List Listener} {t : Timeline}

/-!
# Appending
-/

theorem listeners_append (t rest : Timeline) (ls : List Listener) :
    listeners (t ++ rest) ls = rest.listeners (t.listeners ls) :=
  List.foldl_append

theorem tellings_append (t rest : Timeline) (ls : List Listener) :
    tellings (t ++ rest) ls = t.tellings ls ++ rest.tellings (t.listeners ls) := by
  induction t generalizing ls with
  | nil => rfl
  | cons h t ih =>
      show h.tell ls ++ tellings (t ++ rest) (h.listen ls) = _
      rw [ih, ← List.append_assoc]
      rfl

theorem heard_append (l : Listener) (told more : List (Listener × Event)) :
    heard l (told ++ more) = heard l told ++ heard l more :=
  List.filterMap_append

theorem starts_append (t rest : Timeline) : starts (t ++ rest) = t.starts ++ rest.starts :=
  List.filterMap_append

theorem subscribed_append (t rest : Timeline) :
    subscribed (t ++ rest) = t.subscribed ++ rest.subscribed :=
  List.filterMap_append

theorem inputs_append (t rest : Timeline) : inputs (t ++ rest) = t.inputs ++ rest.inputs :=
  List.filterMap_append

theorem tellings_concat_of_none {h : Happening} (hnone : h.event? = none) (t : Timeline)
    (ls : List Listener) : tellings (t ++ [h]) ls = t.tellings ls := by
  have htell : h.tell (t.listeners ls) = [] := by
    unfold Happening.tell
    rw [hnone]
    rfl
  rw [tellings_append]
  show t.tellings ls ++ (h.tell (t.listeners ls) ++ []) = _
  rw [htell, List.append_nil, List.append_nil]

theorem subscribed_concat_of_none {h : Happening} (hnone : h.subscribed? = none)
    (t : Timeline) : subscribed (t ++ [h]) = t.subscribed := by
  rw [subscribed_append]
  unfold subscribed
  rw [List.filterMap_cons_none hnone]
  exact List.append_nil _

/-!
# Timelines of events only
-/

theorem listeners_ofEvents (es : List Event) (ls : List Listener) :
    (ofEvents es).listeners ls = ls := by
  induction es with
  | nil => rfl
  | cons e es ih => exact ih

theorem tellings_ofEvents (es : List Event) (ls : List Listener) :
    (ofEvents es).tellings ls = es.flatMap fun e => ls.map fun l => (l, e) := by
  induction es with
  | nil => rfl
  | cons e es ih =>
      show (ls.map fun l => (l, e)) ++ [] ++ (ofEvents es).tellings ls = _
      rw [ih, List.append_nil]
      rfl

theorem subscribed_ofEvents (es : List Event) : (ofEvents es).subscribed = [] := by
  induction es with
  | nil => rfl
  | cons e es ih => exact ih

theorem inputs_ofEvents (es : List Event) : (ofEvents es).inputs = [] := by
  induction es with
  | nil => rfl
  | cons e es ih => exact ih

theorem not_called_mem_ofEvents (es : List Event) (f : Flight) : .called f ∉ ofEvents es := by
  intro hmem
  rcases List.mem_map.mp hmem with ⟨e, _, heq⟩
  cases heq

/-!
# What one listener hears
-/

theorem mem_subscribed : l ∈ t.subscribed ↔ .subscribed l ∈ t := by
  unfold subscribed
  rw [List.mem_filterMap]
  constructor
  · rintro ⟨h, hmem, hsome⟩
    cases h with
    | subscribed l' =>
        cases hsome
        exact hmem
    | _ => cases hsome
  · intro hmem
    exact ⟨_, hmem, rfl⟩

theorem heard_tell (l : Listener) (ls : List Listener) (h : Happening) :
    heard l (h.tell ls) = h.event?.toList.flatMap fun e => List.replicate (ls.count l) e := by
  have hone : forall e : Event, heard l (ls.map fun l => (l, e)) =
      List.replicate (ls.count l) e := by
    intro e
    induction ls with
    | nil => rfl
    | cons l' ls ih =>
        unfold heard at ih ⊢
        rw [List.map_cons, List.filterMap_cons, List.count_cons]
        by_cases heq : l' = l
        · simp [heq, ih, List.replicate_succ]
        · simp [heq, ih]
  unfold Happening.tell
  cases h.event? with
  | none => rfl
  | some e =>
      show heard l ((ls.map fun l => (l, e)) ++ []) = List.replicate (ls.count l) e ++ []
      rw [List.append_nil, List.append_nil]
      exact hone e

theorem count_listen (h : Happening) (hin : h ≠ .subscribed l) (hout : h ≠ .unsubscribed l) :
    (h.listen ls).count l = ls.count l := by
  cases h with
  | subscribed l' =>
      have hne : l' ≠ l := fun heq => hin (heq ▸ rfl)
      show (ls ++ [l']).count l = _
      rw [List.count_append, List.count_singleton]
      simp [hne]
  | unsubscribed l' =>
      have hne : l ≠ l' := fun heq => hout (heq ▸ rfl)
      exact List.count_filter (decide_eq_true hne)
  | emitted e => rfl
  | called f => rfl

theorem not_mem_listen (h : Happening) (hin : h ≠ .subscribed l) (hnot : l ∉ ls) :
    l ∉ h.listen ls := by
  cases h with
  | subscribed l' =>
      intro hmem
      cases List.mem_append.mp hmem with
      | inl hmem => exact hnot hmem
      | inr hmem => exact hin (List.mem_singleton.mp hmem ▸ rfl)
  | unsubscribed l' => exact fun hmem => hnot (List.mem_filter.mp hmem).1
  | emitted e => exact hnot
  | called f => exact hnot

theorem not_mem_listeners (hin : .subscribed l ∉ t) (hnot : l ∉ ls) : l ∉ t.listeners ls := by
  induction t generalizing ls with
  | nil => exact hnot
  | cons h t ih =>
      rcases List.ne_and_not_mem_of_not_mem_cons hin with ⟨hne, hin⟩
      exact ih hin (not_mem_listen h hne.symm hnot)

theorem heard_tellings_of_not_mem (hin : .subscribed l ∉ t) (hnot : l ∉ ls) :
    heard l (t.tellings ls) = [] := by
  induction t generalizing ls with
  | nil => rfl
  | cons h t ih =>
      rcases List.ne_and_not_mem_of_not_mem_cons hin with ⟨hne, hin⟩
      show heard l (h.tell ls ++ tellings t (h.listen ls)) = []
      rw [heard_append, ih hin (not_mem_listen h hne.symm hnot), heard_tell,
        List.count_eq_zero.mpr hnot]
      simp

/-- While a listener is subscribed, every event is heard once. -/
theorem heard_tellings_of_count (hin : .subscribed l ∉ t) (hout : .unsubscribed l ∉ t)
    (hone : ls.count l = 1) : heard l (t.tellings ls) = t.events := by
  induction t generalizing ls with
  | nil => rfl
  | cons h t ih =>
      rcases List.ne_and_not_mem_of_not_mem_cons hin with ⟨hne, hin⟩
      rcases List.ne_and_not_mem_of_not_mem_cons hout with ⟨hne', hout⟩
      have hone' : (h.listen ls).count l = 1 :=
        (count_listen h hne.symm hne'.symm).trans hone
      show heard l (h.tell ls ++ tellings t (h.listen ls)) = _
      rw [heard_append, ih hin hout hone', heard_tell, hone]
      unfold events
      cases hevent : h.event? with
      | none => rw [List.filterMap_cons_none hevent]; rfl
      | some e => rw [List.filterMap_cons_some hevent]; rfl

/-!
# From a subscription on
-/

theorem count_subscribe (hnot : l ∉ ls) : (ls ++ [l]).count l = 1 := by
  rw [List.count_append, List.count_eq_zero.mpr hnot, List.count_singleton_self]

theorem heard_tellings_since {before after : Timeline}
    (hnodup : (subscribed (before ++ .subscribed l :: after)).Nodup)
    (hout : .unsubscribed l ∉ after) :
    heard l ((before ++ .subscribed l :: after).tellings []) = after.events := by
  rw [subscribed_append, List.nodup_append] at hnodup
  rcases hnodup with ⟨_, hrest, hdisjoint⟩
  have hbefore : .subscribed l ∉ before := fun hmem =>
    hdisjoint l (mem_subscribed.mpr hmem) l List.mem_cons_self rfl
  have hafter : .subscribed l ∉ after := fun hmem =>
    (List.nodup_cons.mp hrest).1 (mem_subscribed.mpr hmem)
  have hnot : l ∉ before.listeners [] := not_mem_listeners hbefore List.not_mem_nil
  rw [tellings_append, heard_append, heard_tellings_of_not_mem hbefore List.not_mem_nil]
  show heard l (tellings after (before.listeners [] ++ [l])) = _
  exact heard_tellings_of_count hafter hout (count_subscribe hnot)

theorem heard_tellings_between {before during after : Timeline}
    (hnodup : (subscribed (before ++ .subscribed l :: during ++
      .unsubscribed l :: after)).Nodup)
    (hout : .unsubscribed l ∉ during) :
    heard l ((before ++ .subscribed l :: during ++ .unsubscribed l :: after).tellings []) =
      during.events := by
  rw [subscribed_append, List.nodup_append] at hnodup
  rcases hnodup with ⟨hfirst, _, hdisjoint⟩
  have hafter : .subscribed l ∉ after := by
    intro hmem
    have hsecond : l ∈ subscribed (.unsubscribed l :: after) :=
      mem_subscribed.mpr (List.mem_cons_of_mem _ hmem)
    have hmem' : l ∈ subscribed (before ++ .subscribed l :: during) :=
      mem_subscribed.mpr (List.mem_append_right _ List.mem_cons_self)
    exact hdisjoint l hmem' l hsecond rfl
  rw [tellings_append, heard_append, heard_tellings_since hfirst hout]
  show during.events ++ heard l (tellings after _) = _
  have hnot : l ∉ Happening.listen ((before ++ .subscribed l :: during).listeners [])
      (.unsubscribed l) := by
    intro hmem
    exact of_decide_eq_true (List.mem_filter.mp hmem).2 rfl
  rw [heard_tellings_of_not_mem hafter hnot, List.append_nil]

end Timeline
end Simulation
end CodeSurvey
