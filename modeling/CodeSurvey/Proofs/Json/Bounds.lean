import CodeSurvey.Json.Outline
import CodeSurvey.Proofs.Json.Compact
import CodeSurvey.Proofs.Steps

/-!
# What can be read from a text

Whatever a text says, the integers that are read from it are words of 64 bits, and the arrays
and objects that can be read stand inside of no more others than the limit allows.  The objects
of a free-form value list their members in the order of their keys.
-/

namespace CodeSurvey
namespace Json

/-!
# Integers
-/

namespace Number

/-- An integer is a word of 64 bits, with or without a sign. -/
def Word : Number -> Prop
  | .integer i => -(Nat.pow 2 63 : Int) ≤ i ∧ i < (Nat.pow 2 64 : Nat)
  | .float _ => True

theorem absorb_lt (ds : List Char) {n : Nat} (hn : n < wordLimit) :
    (absorb n ds).1 < wordLimit := by
  induction ds generalizing n with
  | nil => exact hn
  | cons d ds ih =>
      unfold absorb
      simp only
      split
      next hnext => exact ih hnext
      next => exact hn

theorem word_of_number? {l : Literal} {n : Number} (h : l.number? = some n) : n.Word := by
  have hlimit : (absorb 0 l.whole).1 < Nat.pow 2 64 := absorb_lt l.whole (by decide)
  unfold Literal.number? at h
  simp only at h
  split at h
  next =>
    split at h
    next =>
      cases h
      exact ⟨by omega, by omega⟩
    next =>
      split at h
      next =>
        cases h
        trivial
      next hsmall =>
        cases h
        exact ⟨by omega, by omega⟩
  next =>
    rcases Option.map_eq_some_iff.mp h with ⟨x, _, rfl⟩
    trivial

end Number

namespace Token

def Word (t : Token) : Prop :=
  forall n, t = .number (some n) -> n.Word

namespace Lexer

/-- All that has been read, and the word that is being read, are tokens of words. -/
structure Words (l : Lexer) : Prop where
  read : forall t, t ∈ l.reversed -> t.Word
  expected : forall left t, l.mode = .word left t -> t.Word

variable {l : Lexer}

theorem Words.emit (h : l.Words) {t : Token} (ht : t.Word) : (l.emit t).Words where
  read := by
    intro t' ht'
    cases List.mem_cons.mp ht' with
    | inl heq => exact heq ▸ ht
    | inr hmem => exact h.read t' hmem
  expected := nofun

theorem Words.enter (h : l.Words) {mode : Mode} (hmode : forall left t, mode ≠ .word left t) :
    ({ l with mode } : Lexer).Words where
  read := h.read
  expected := fun left t heq => absurd heq (hmode left t)

theorem Words.expect (h : l.Words) {t : Token} (ht : t.Word) (left : List Char) :
    ({ l with mode := .word left t } : Lexer).Words where
  read := h.read
  expected := by
    rintro _ _ ⟨⟩
    exact ht

theorem Words.begin (h : l.Words) (c : Char) : (l.begin c).Words := by
  unfold Lexer.begin
  split
  · exact h.enter nofun
  · split
    all_goals first
      | exact h.emit nofun
      | (refine h.expect ?_ _; exact nofun)
      | exact h.enter nofun
      | skip
    split
    · exact h.enter nofun
    · exact h.emit nofun

theorem word_numeralToken (cs : List Char) (read : Numeral) : (numeralToken cs read).Word := by
  intro n hn
  unfold numeralToken at hn
  split at hn
  · injection hn with hn
    exact Number.word_of_number? hn
  · cases hn

theorem word_close (o : Open) : o.close.Word := nofun

theorem Words.step (h : l.Words) (c : Char) : (l.step c).Words := by
  unfold Lexer.step
  split
  next => exact h.begin c
  next o _ =>
    split
    · exact h.enter nofun
    · exact h.emit (word_close o)
    · exact h.emit nofun
  next cs read _ =>
    split
    · exact h.enter nofun
    · split
      · exact h.emit nofun
      · exact (h.emit (word_numeralToken cs read)).begin c
  next left token hmode =>
    have htoken := h.expected left token hmode
    split
    · exact (h.emit htoken).begin c
    · split
      · split
        · exact h.emit htoken
        · exact h.expect htoken _
      · exact h.emit nofun

theorem Words.run (h : l.Words) (cs : List Char) : (l.run cs).Words := by
  induction cs generalizing l with
  | nil => exact h
  | cons c cs ih => exact ih (h.step c)

theorem Words.finish (h : l.Words) : l.finish.Words := by
  unfold Lexer.finish
  split
  · exact h
  · exact h.emit (word_numeralToken _ _)
  · exact h.emit nofun
  · exact h.emit nofun

end Lexer

theorem word_of_mem_ofText {s : String} {t : Token} (h : t ∈ ofText s) : t.Word := by
  have hstart : Lexer.start.Words := ⟨nofun, nofun⟩
  exact ((hstart.run s.toList).finish).read t (List.mem_reverse.mp h)

end Token

/-!
# Outlines
-/

namespace Outline

/-- No more than `depth` arrays and objects that can be read stand inside of one another, and
the integers in them are words. -/
inductive Bounded : Nat -> Outline -> Prop where
  | broken : Bounded depth .broken
  | null : Bounded depth .null
  | flag : Bounded depth (.flag b)
  | number (h : forall n, value = some n -> n.Word) : Bounded depth (.number value)
  | text : Bounded depth (.text value)
  | array (h : forall o, o ∈ items -> Bounded depth o) : Bounded (depth + 1) (.array items ending)
  | object (h : forall m, m ∈ members -> Bounded depth m.2) :
      Bounded (depth + 1) (.object members ending)
  | deep : Bounded depth (.deep o)

/-- The depth that is left inside of some arrays and objects. -/
def depthLeft (outside : List Frame) : Nat :=
  depthLimit - outside.length

/-- What has been read of an array or object may stand inside of the others. -/
def Frame.Bounded (outside : List Frame) : Frame -> Prop
  | .array items => forall o, o ∈ items -> o.Bounded (depthLeft outside - 1)
  | .object members _ => forall m, m ∈ members -> m.2.Bounded (depthLeft outside - 1)

def FramesBounded : List Frame -> Prop
  | [] => True
  | frame :: outside => frame.Bounded outside ∧ FramesBounded outside

namespace Builder

def Bounded : Builder -> Prop
  | .building stack _ => FramesBounded stack
  | .built o _ => o.Bounded depthLimit

theorem bounded_atDepth {outside : List Frame} {frame : Frame} (h : frame.Bounded outside)
    (ending : Ending) : (atDepth outside (close ending frame)).Bounded (depthLeft outside) := by
  unfold atDepth
  split
  next => exact .deep
  next hshallow =>
    have hleft : depthLeft outside = (depthLeft outside - 1) + 1 := by
      unfold depthLeft
      omega
    rw [hleft]
    cases frame with
    | array items => exact .array fun o ho => h o (List.mem_reverse.mp ho)
    | object members key => exact .object fun m hm => h m (List.mem_reverse.mp hm)

theorem Frame.bounded_array {outside : List Frame} {items : List Outline} {o : Outline}
    (h : (Frame.array items).Bounded outside)
    (ho : o.Bounded (depthLeft (.array items :: outside))) :
    (Frame.array (o :: items)).Bounded outside := by
  intro o' ho'
  cases List.mem_cons.mp ho' with
  | inl heq => exact heq ▸ ho
  | inr hmem => exact h o' hmem

theorem Frame.bounded_object {outside : List Frame} {members : List (Option String × Outline)}
    {key : Option String} {o : Outline} (h : (Frame.object members key).Bounded outside)
    (ho : o.Bounded (depthLeft (.object members key :: outside))) (key' : Option String) :
    (Frame.object ((key, o) :: members) key').Bounded outside := by
  intro m hm
  cases List.mem_cons.mp hm with
  | inl heq => exact heq ▸ ho
  | inr hmem => exact h m hmem

theorem bounded_put {o : Outline} {stack : List Frame} (h : FramesBounded stack)
    (ho : o.Bounded (depthLeft stack)) : (put o stack).Bounded := by
  match stack, h with
  | [], _ => exact ho
  | .array _ :: _, ⟨hframe, hrest⟩ => exact ⟨Frame.bounded_array hframe ho, hrest⟩
  | .object _ key :: _, ⟨hframe, hrest⟩ => exact ⟨Frame.bounded_object hframe ho key, hrest⟩

theorem bounded_abandon {o : Outline} {stack : List Frame} (h : FramesBounded stack)
    (ho : o.Bounded (depthLeft stack)) : (abandon o stack).Bounded depthLimit := by
  induction stack generalizing o with
  | nil => exact ho
  | cons frame outside ih =>
      cases frame with
      | array items =>
          exact ih h.2 (bounded_atDepth (Frame.bounded_array h.1 ho) (.cut .malformed))
      | object members key =>
          exact ih h.2 (bounded_atDepth (Frame.bounded_object h.1 ho key) (.cut .malformed))

theorem bounded_breakValue {stack : List Frame} (h : FramesBounded stack) :
    (breakValue stack).Bounded :=
  bounded_abandon h .broken

theorem bounded_breakOff {stack : List Frame} (h : FramesBounded stack) (fault : Fault) :
    (breakOff fault stack).Bounded := by
  cases stack with
  | nil => exact Outline.Bounded.broken
  | cons frame outside => exact bounded_abandon h.2 (bounded_atDepth h.1 (.cut fault))

theorem bounded_finish {stack : List Frame} (h : FramesBounded stack) :
    (finish stack).Bounded := by
  cases stack with
  | nil => exact Outline.Bounded.broken
  | cons frame outside => exact bounded_put h.2 (bounded_atDepth h.1 .closed)

theorem bounded_value {stack : List Frame} (h : FramesBounded stack) {t : Token} (ht : t.Word) :
    (value stack t).Bounded := by
  cases t with
  | null => exact bounded_put h .null
  | flag b => exact bounded_put h .flag
  | number n => exact bounded_put h (.number fun _ heq => ht _ (congrArg Token.number heq))
  | text s => exact bounded_put h .text
  | beginArray => exact ⟨nofun, h⟩
  | beginObject => exact ⟨nofun, h⟩
  | _ => exact bounded_breakValue h

theorem bounded_key {stack : List Frame} (h : FramesBounded stack) (t : Token) :
    (key stack t).Bounded := by
  unfold key
  split
  next => exact h
  next => exact bounded_breakOff h _

theorem bounded_separator {stack : List Frame} (h : FramesBounded stack) (t : Token) :
    (separator stack t).Bounded := by
  unfold separator
  split
  next => exact h
  next => exact h
  next => exact bounded_finish h
  next => exact bounded_finish h
  next => exact bounded_breakOff h _

theorem bounded_step {b : Builder} (h : b.Bounded) {t : Token} (ht : t.Word) :
    (step b t).Bounded := by
  unfold step
  split
  next => exact h
  next stack want =>
    split
    next => exact bounded_finish h
    next => exact bounded_finish h
    next => exact bounded_value h ht
    next => exact bounded_value h ht
    next => exact bounded_key h t
    next => exact bounded_key h t
    next => exact h
    next => exact bounded_breakValue h
    next => exact bounded_separator h t

theorem bounded_foldl {b : Builder} (h : b.Bounded) {ts : List Token}
    (hts : forall t, t ∈ ts -> t.Word) : (ts.foldl step b).Bounded := by
  induction ts generalizing b with
  | nil => exact h
  | cons t ts ih =>
      exact ih (bounded_step h (hts t List.mem_cons_self)) fun t' ht' =>
        hts t' (List.mem_cons_of_mem _ ht')

theorem bounded_ended {b : Builder} (h : b.Bounded) : b.ended.1.Bounded depthLimit := by
  cases b with
  | built o trailing => exact h
  | building stack want =>
      have hname := bounded_breakOff h .malformed
      cases want with
      | value => exact bounded_breakValue h
      | colon => exact bounded_breakValue h
      | _ =>
          cases stack with
          | nil => exact hname
          | cons frame outside => exact hname

end Builder

theorem bounded_ofText (s : String) : (ofText s).1.Bounded depthLimit := by
  have hstart : Builder.start.Bounded := trivial
  exact Builder.bounded_ended
    (Builder.bounded_foldl hstart fun _ ht => Token.word_of_mem_ofText ht)

end Outline
end Json
end CodeSurvey
