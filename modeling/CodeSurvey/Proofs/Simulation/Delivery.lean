import CodeSurvey.Proofs.Scheduler.Capacity
import CodeSurvey.Proofs.Simulation.Timeline

/-!
# Delivery

Where observers only listen, a delivery tells everybody in the registry of every event that
is waiting, and leaves nothing behind.  What else is done in a world between two deliveries
is told to nobody.
-/

namespace CodeSurvey
namespace Simulation

open Scheduler (Event TaskId Registry Token State)

/-- What an observer notes of what is told. -/
def Note.ofTelling? : Listener × Event -> Option Note
  | (.observer number, e) => some (.saw number e)
  | (.recorder, _) => none

def Listener.recorded? : Listener × Event -> Option Event
  | (.recorder, e) => some e
  | (.observer _, _) => none

namespace World

variable {w w' : World} {t : Timeline}

/-- The world after something was told to listeners that do nothing else. -/
def hear (w : World) (told : List (Listener × Event)) : World :=
  { w with report := { w.report with
      events := w.report.events ++ (told.filterMap Listener.recorded?).map fun e => (w.time, e)
      notes := w.report.notes ++ told.filterMap Note.ofTelling? } }

theorem hear_nil (w : World) : w.hear [] = w := by
  unfold hear
  rw [List.filterMap_nil, List.map_nil, List.append_nil, List.filterMap_nil, List.append_nil]

theorem hear_hear (w : World) (told more : List (Listener × Event)) :
    (w.hear told).hear more = w.hear (told ++ more) := by
  unfold hear
  simp only [List.filterMap_append, List.map_append, ← List.append_assoc]
  rfl

/-!
# Listeners
-/

/-- The observers do nothing but listen, and each of them is known by a token of its own. -/
structure Registered (w : World) : Prop where
  quiet : forall o, o ∈ w.observers -> o.reactions = []
  owner : forall entry, entry ∈ w.registry.observers -> forall n o,
    w.observers[n]? = some o -> (o.token = entry.1 ↔ entry.2 = .observer n)
  known : forall entry, entry ∈ w.registry.observers -> forall n,
    entry.2 = .observer n -> n < w.observers.length
  given : forall entry, entry ∈ w.registry.observers -> entry.1.number ≤ w.registry.lastToken
  kept : forall o, o ∈ w.observers -> o.token.number ≤ w.registry.lastToken

theorem Registered.congr (h : w.Registered) (hregistry : w'.registry = w.registry)
    (hobservers : w'.observers = w.observers) : w'.Registered := by
  constructor
  case quiet => rw [hobservers]; exact h.quiet
  case owner => rw [hregistry, hobservers]; exact h.owner
  case known => rw [hregistry, hobservers]; exact h.known
  case given => rw [hregistry]; exact h.given
  case kept => rw [hregistry, hobservers]; exact h.kept

theorem tell_eq (hquiet : forall o, o ∈ w.observers -> o.reactions = []) {l : Listener}
    (hknown : forall n, l = .observer n -> n < w.observers.length) (e : Event) :
    w.tell l e = w.hear [(l, e)] := by
  cases l with
  | recorder =>
      unfold hear
      rw [show [(Listener.recorder, e)].filterMap Note.ofTelling? = [] from rfl,
        List.append_nil]
      rfl
  | observer n =>
      have hlt := hknown n rfl
      have hget : w.observers[n]? = some w.observers[n] := List.getElem?_eq_getElem hlt
      have hreactions := hquiet w.observers[n] (List.getElem_mem hlt)
      have hset : w.observers.set n { w.observers[n] with reactions := [] } = w.observers := by
        rw [← hreactions]
        exact List.set_getElem_self hlt
      unfold tell
      simp only
      rw [hget]
      simp only
      rw [hreactions]
      unfold react
      simp only
      unfold note hear
      rw [show [(Listener.observer n, e)].filterMap Listener.recorded? = [] from rfl,
        List.map_nil, List.append_nil]
      simp only
      rw [hset]
      rfl

theorem foldl_tell_eq (w : World) (entries : List (Token × Listener))
    (hquiet : forall o, o ∈ w.observers -> o.reactions = [])
    (hknown : forall entry, entry ∈ entries -> forall n,
      entry.2 = .observer n -> n < w.observers.length) (e : Event) :
    entries.foldl (fun w o => w.tell o.2 e) w = w.hear (entries.map fun o => (o.2, e)) := by
  induction entries generalizing w with
  | nil => exact w.hear_nil.symm
  | cons entry entries ih =>
      have hfirst := tell_eq hquiet (hknown entry List.mem_cons_self) e
      rw [List.foldl_cons, hfirst,
        ih (w.hear [(entry.2, e)]) hquiet fun o ho => hknown o (List.mem_cons_of_mem _ ho)]
      exact hear_hear _ _ _

/-- What is told of some events to all that are registered. -/
def announced (r : Registry Listener) (es : List Event) : List (Listener × Event) :=
  es.flatMap fun e => r.observers.map fun o => (o.2, e)

theorem foldl_broadcast_eq (w : World) (r : Registry Listener) (es : List Event)
    (hquiet : forall o, o ∈ w.observers -> o.reactions = [])
    (hknown : forall entry, entry ∈ r.observers -> forall n,
      entry.2 = .observer n -> n < w.observers.length) :
    es.foldl (r.broadcast tell) w = w.hear (announced r es) := by
  induction es generalizing w with
  | nil => exact w.hear_nil.symm
  | cons e es ih =>
      have hfirst : r.broadcast tell w e = w.hear (r.observers.map fun o => (o.2, e)) :=
        foldl_tell_eq w r.observers hquiet hknown e
      rw [List.foldl_cons, hfirst, ih (w.hear _) hquiet hknown]
      exact hear_hear _ _ _

theorem deliverRounds_of_none (rounds : Nat) (hnone : w.scheduler.events = []) :
    w.deliverRounds rounds = w := by
  cases rounds with
  | zero => rfl
  | succ rounds =>
      unfold deliverRounds
      rw [hnone]
      rfl

/-- After one round there is nothing left to deliver. -/
theorem deliver_eq (h : w.Registered) :
    w.deliver =
      { w with scheduler := w.scheduler.deliver }.hear
        (announced w.registry w.scheduler.events) := by
  unfold deliver deliverRounds
  split
  next hempty =>
    have hnone : w.scheduler.events = [] := List.isEmpty_iff.mp hempty
    have hsame : w.scheduler.deliver = w.scheduler := by
      unfold State.deliver
      rw [← hnone]
    rw [hsame, hnone]
    exact (hear_nil _).symm
  next =>
    have hround : w.scheduler.events.foldl (w.registry.broadcast tell)
        { w with scheduler := { w.scheduler with events := [] } } =
        { w with scheduler := w.scheduler.deliver }.hear
          (announced w.registry w.scheduler.events) :=
      foldl_broadcast_eq _ w.registry w.scheduler.events h.quiet h.known
    exact (congrArg (deliverRounds _) hround).trans (deliverRounds_of_none _ rfl)

/-!
# What everybody has heard
-/

/-- What the listeners have noted is what a timeline says that they were told. -/
structure Heard (w : World) (t : Timeline) : Prop where
  registered : w.Registered
  listeners : w.registry.observers.map Prod.snd = t.listeners []
  notes : w.report.notes = (t.tellings []).filterMap Note.ofTelling?
  events : w.report.events.map Prod.snd = (t.tellings []).filterMap Listener.recorded?
  once : t.subscribed.Nodup
  numbered : forall n, .subscribed (.observer n) ∈ t -> n < w.observers.length

theorem Heard.congr (h : w.Heard t) (hregistry : w'.registry = w.registry)
    (hobservers : w'.observers = w.observers) (hnotes : w'.report.notes = w.report.notes)
    (hevents : w'.report.events = w.report.events) : w'.Heard t := by
  constructor
  case registered => exact h.registered.congr hregistry hobservers
  case listeners => rw [hregistry]; exact h.listeners
  case notes => rw [hnotes]; exact h.notes
  case events => rw [hevents]; exact h.events
  case once => exact h.once
  case numbered => rw [hobservers]; exact h.numbered

theorem Heard.deliver (h : w.Heard t) :
    w.deliver.Heard (t ++ Timeline.ofEvents w.scheduler.events) := by
  have hannounced : (Timeline.ofEvents w.scheduler.events).tellings (t.listeners []) =
      announced w.registry w.scheduler.events := by
    rw [Timeline.tellings_ofEvents, ← h.listeners]
    unfold announced
    simp only [List.map_map]
    rfl
  rw [deliver_eq h.registered]
  constructor
  case registered => exact h.registered.congr rfl rfl
  case listeners =>
    rw [Timeline.listeners_append, Timeline.listeners_ofEvents]
    exact h.listeners
  case notes =>
    rw [Timeline.tellings_append, hannounced, List.filterMap_append, ← h.notes]
    rfl
  case events =>
    rw [Timeline.tellings_append, hannounced, List.filterMap_append, ← h.events]
    show (w.report.events ++ List.map _ _).map Prod.snd = _
    rw [List.map_append, List.map_map]
    exact congrArg _ (List.map_id' _)
  case once =>
    rw [Timeline.subscribed_append, Timeline.subscribed_ofEvents, List.append_nil]
    exact h.once
  case numbered =>
    intro n hmem
    cases List.mem_append.mp hmem with
    | inl hmem => exact h.numbered n hmem
    | inr hmem =>
        rcases List.mem_map.mp hmem with ⟨e, _, heq⟩
        cases heq

theorem Heard.called (h : w.Heard t) (f : Flight) : w.Heard (t ++ [.called f]) := by
  constructor
  case registered => exact h.registered
  case listeners => rw [Timeline.listeners_append]; exact h.listeners
  case notes => rw [Timeline.tellings_concat_of_none rfl]; exact h.notes
  case events => rw [Timeline.tellings_concat_of_none rfl]; exact h.events
  case once => rw [Timeline.subscribed_concat_of_none rfl]; exact h.once
  case numbered =>
    intro n hmem
    cases List.mem_append.mp hmem with
    | inl hmem => exact h.numbered n hmem
    | inr hmem => cases List.mem_singleton.mp hmem

/-!
# Coming and going of observers
-/

/-- The observer that subscribes next. -/
def newcomer (w : World) (name : String) : Observer :=
  { name, token := ⟨w.registry.lastToken + 1⟩, reactions := [] }

theorem mem_registry_subscribe {name : String} {entry : Token × Listener}
    (h : entry ∈ (w.subscribe name []).1.registry.observers) :
    entry ∈ w.registry.observers ∨
      entry = ((w.newcomer name).token, .observer w.observers.length) := by
  cases List.mem_append.mp h with
  | inl hmem => exact Or.inl hmem
  | inr hmem => exact Or.inr (List.mem_singleton.mp hmem)

theorem mem_subscribe {name : String} {o : Observer} (h : o ∈ (w.subscribe name []).1.observers) :
    o ∈ w.observers ∨ o = w.newcomer name := by
  cases List.mem_append.mp h with
  | inl hmem => exact Or.inl hmem
  | inr hmem => exact Or.inr (List.mem_singleton.mp hmem)

theorem getElem?_subscribe {name : String} {n : Nat} {o : Observer}
    (h : (w.subscribe name []).1.observers[n]? = some o) :
    w.observers[n]? = some o ∨ n = w.observers.length ∧ o = w.newcomer name := by
  have hget : (w.observers ++ [w.newcomer name])[n]? = some o := h
  rw [List.getElem?_append] at hget
  split at hget
  next => exact Or.inl hget
  next hge =>
    rcases List.getElem?_eq_some_iff.mp hget with ⟨hlt, hval⟩
    have hzero : n - w.observers.length = 0 := Nat.lt_one_iff.mp hlt
    refine Or.inr ⟨Nat.le_antisymm (Nat.sub_eq_zero_iff_le.mp hzero) (Nat.le_of_not_lt hge), ?_⟩
    rw [← hval]
    simp only [hzero]
    rfl

theorem Registered.token_ne (h : w.Registered) (name : String) {entry : Token × Listener}
    (hentry : entry ∈ w.registry.observers) : (w.newcomer name).token ≠ entry.1 := by
  intro heq
  have hle := h.given entry hentry
  rw [← heq] at hle
  exact Nat.not_succ_le_self _ hle

theorem Registered.owner_subscribe (h : w.Registered) {name : String} {entry : Token × Listener}
    (hentry : entry ∈ (w.subscribe name []).1.registry.observers) {n : Nat} {o : Observer}
    (hget : (w.subscribe name []).1.observers[n]? = some o) :
    o.token = entry.1 ↔ entry.2 = .observer n := by
  -- The token is new, and so is the number: no old entry has the one and no old observer the
  -- other.
  rcases mem_registry_subscribe hentry with hold | rfl
  · rcases getElem?_subscribe hget with hget | ⟨rfl, rfl⟩
    · exact h.owner entry hold n o hget
    · constructor
      · exact fun heq => absurd heq (h.token_ne name hold)
      · exact fun heq => absurd (h.known entry hold _ heq) (Nat.lt_irrefl _)
  · rcases getElem?_subscribe hget with hget | ⟨rfl, rfl⟩
    · have hlt : n < w.observers.length := (List.getElem?_eq_some_iff.mp hget).1
      constructor
      · intro heq
        have hle := h.kept o (List.mem_of_getElem? hget)
        rw [heq] at hle
        exact absurd hle (Nat.not_succ_le_self _)
      · intro heq
        cases heq
        exact absurd hlt (Nat.lt_irrefl _)
    · exact ⟨fun _ => rfl, fun _ => rfl⟩

theorem Registered.subscribe (h : w.Registered) (name : String) :
    (w.subscribe name []).1.Registered := by
  have hlength : (w.subscribe name []).1.observers.length = w.observers.length + 1 :=
    List.length_append
  constructor
  case quiet =>
    intro o hmem
    rcases mem_subscribe hmem with hmem | rfl
    · exact h.quiet o hmem
    · rfl
  case owner => exact fun _ hentry _ _ hget => h.owner_subscribe hentry hget
  case known =>
    intro entry hentry n heq
    rw [hlength]
    rcases mem_registry_subscribe hentry with hold | rfl
    · exact Nat.lt_succ_of_lt (h.known entry hold n heq)
    · cases heq
      exact Nat.lt_succ_self _
  case given =>
    intro entry hentry
    rcases mem_registry_subscribe hentry with hold | rfl
    · exact Nat.le_succ_of_le (h.given entry hold)
    · exact Nat.le_refl _
  case kept =>
    intro o hmem
    rcases mem_subscribe hmem with hmem | rfl
    · exact Nat.le_succ_of_le (h.kept o hmem)
    · exact Nat.le_refl _

theorem Heard.subscribe (h : w.Heard t) (name : String) :
    (w.subscribe name []).1.Heard (t ++ [.subscribed (.observer w.observers.length)]) := by
  have hlength : (w.subscribe name []).1.observers.length = w.observers.length + 1 :=
    List.length_append
  constructor
  case registered => exact h.registered.subscribe name
  case listeners =>
    rw [Timeline.listeners_append, ← h.listeners]
    exact List.map_append
  case notes => rw [Timeline.tellings_concat_of_none rfl]; exact h.notes
  case events => rw [Timeline.tellings_concat_of_none rfl]; exact h.events
  case once =>
    have hnew : .observer w.observers.length ∉ t.subscribed := by
      intro hmem
      exact Nat.lt_irrefl _ (h.numbered _ (Timeline.mem_subscribed.mp hmem))
    rw [Timeline.subscribed_append, List.nodup_append]
    refine ⟨h.once, List.nodup_singleton _, ?_⟩
    intro l hl l' hl' heq
    rw [heq, List.mem_singleton.mp hl'] at hl
    exact hnew hl
  case numbered =>
    intro n hmem
    rw [hlength]
    cases List.mem_append.mp hmem with
    | inl hmem => exact Nat.lt_succ_of_lt (h.numbered n hmem)
    | inr hmem =>
        cases List.mem_singleton.mp hmem
        exact Nat.lt_succ_self _

theorem Registered.filter (h : w.Registered) (keep : Token × Listener -> Bool) :
    { w with registry := { w.registry with
        observers := w.registry.observers.filter keep } }.Registered where
  quiet := h.quiet
  owner := fun entry hentry => h.owner entry (List.mem_filter.mp hentry).1
  known := fun entry hentry => h.known entry (List.mem_filter.mp hentry).1
  given := fun entry hentry => h.given entry (List.mem_filter.mp hentry).1
  kept := h.kept

theorem frame_unsubscribe (w : World) (number : Nat) :
    (w.unsubscribe number).1.observers = w.observers ∧
      (w.unsubscribe number).1.report = w.report := by
  unfold World.unsubscribe
  split
  · exact ⟨rfl, rfl⟩
  · exact ⟨rfl, rfl⟩

theorem Registered.unsubscribe (h : w.Registered) (number : Nat) :
    (w.unsubscribe number).1.Registered := by
  unfold World.unsubscribe
  split
  next o _ => exact h.filter fun entry => entry.1 ≠ o.token
  next => exact h

theorem Registered.listeners_unsubscribe (h : w.Registered) (number : Nat) :
    (w.unsubscribe number).1.registry.observers.map Prod.snd =
      (w.registry.observers.map Prod.snd).filter fun l => l ≠ .observer number := by
  rw [List.filter_map]
  apply congrArg (List.map Prod.snd)
  unfold World.unsubscribe
  split
  next o hget =>
    apply List.filter_congr
    intro entry hentry
    have howner := h.owner entry hentry number o hget
    simp only [Function.comp_apply, decide_eq_decide, ne_eq]
    rw [← howner]
    exact not_congr eq_comm
  next hnone =>
    apply Eq.symm
    apply List.filter_eq_self.mpr
    intro entry hentry
    apply decide_eq_true
    intro heq
    have hlt := h.known entry hentry number heq
    rw [List.getElem?_eq_getElem hlt] at hnone
    cases hnone

/-- Whoever ceases to listen is not heard of again; the others keep their order. -/
theorem Heard.unsubscribe (h : w.Heard t) (number : Nat) :
    (w.unsubscribe number).1.Heard (t ++ [.unsubscribed (.observer number)]) := by
  rcases w.frame_unsubscribe number with ⟨hobservers, hreport⟩
  constructor
  case registered => exact h.registered.unsubscribe number
  case listeners =>
    rw [Timeline.listeners_append, ← h.listeners]
    exact h.registered.listeners_unsubscribe number
  case notes =>
    rw [Timeline.tellings_concat_of_none rfl, hreport]
    exact h.notes
  case events =>
    rw [Timeline.tellings_concat_of_none rfl, hreport]
    exact h.events
  case once => rw [Timeline.subscribed_concat_of_none rfl]; exact h.once
  case numbered =>
    intro n hmem
    rw [hobservers]
    cases List.mem_append.mp hmem with
    | inl hmem => exact h.numbered n hmem
    | inr hmem => cases List.mem_singleton.mp hmem

end World
end Simulation
end CodeSurvey
