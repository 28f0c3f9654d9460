import CodeSurvey.Json.Printer
import CodeSurvey.Proofs.Json.Printing
import CodeSurvey.Proofs.Number.Layout
import Mathlib.Data.List.Nodup
import Mathlib.Data.String.Basic

/-!
# Different values have different compact texts

A text that begins with the compact form of a value determines the value and the rest of
the text, if the rest does not go on with a number.  With the members of objects sorted by
their keys, it determines the value but for their order.
-/

namespace CodeSurvey
namespace Json

open Text.Decimal (isDigit digits)

/-!
# Numbers
-/

/-- The characters of which the text of a number consists. -/
def isNumeral (c : Char) : Bool :=
  isDigit c || c = '.' || c = 'e' || c = '+' || c = '-'

theorem isNumeral_of_isDigit {c : Char} (h : isDigit c = true) : isNumeral c = true := by
  unfold isNumeral
  rw [h]
  rfl

namespace Number

open Literal (AllDigits Proper fractionChars exponentChars)

theorem isNumeral_of_mem_exponentChars {exponent : Option (Bool × List Char)}
    (h : forall e, exponent = some e -> AllDigits e.2) {c : Char}
    (hc : c ∈ exponentChars exponent) : isNumeral c = true := by
  rcases exponent with _ | ⟨minus, ds⟩
  · cases hc
  · rcases List.mem_cons.mp hc with rfl | hc
    · rfl
    · rcases List.mem_cons.mp hc with rfl | hc
      · cases minus <;> rfl
      · exact isNumeral_of_isDigit (h _ rfl c hc)

theorem isNumeral_of_mem_fractionChars {fraction : List Char} (h : AllDigits fraction)
    {c : Char} (hc : c ∈ fractionChars fraction) : isNumeral c = true := by
  unfold fractionChars at hc
  split at hc
  · cases hc
  · rcases List.mem_cons.mp hc with rfl | hc
    · rfl
    · exact isNumeral_of_isDigit (h c hc)

theorem isNumeral_of_mem_chars {l : Literal} (h : l.Proper) {c : Char} (hc : c ∈ l.chars) :
    isNumeral c = true := by
  have hunsigned : c ∈ l.whole ++ (fractionChars l.fraction ++ exponentChars l.exponent) ->
      isNumeral c = true := by
    intro hc
    rcases List.mem_append.mp hc with hc | hc
    · exact isNumeral_of_isDigit (h.whole c hc)
    · rcases List.mem_append.mp hc with hc | hc
      · exact isNumeral_of_mem_fractionChars h.fraction hc
      · exact isNumeral_of_mem_exponentChars h.exponent hc
  unfold Literal.chars at hc
  simp only at hc
  split at hc
  · rcases List.mem_cons.mp hc with rfl | hc
    · rfl
    · exact hunsigned hc
  · exact hunsigned hc

def ofInteger (i : Int) : Literal :=
  ⟨decide (i < 0), digits i.natAbs, [], none⟩

theorem proper_ofInteger (i : Int) : (ofInteger i).Proper where
  nonempty := Text.Decimal.digits_ne_nil _
  whole := CodeSurvey.Number.Shortest.allDigits_digits _
  fraction := fun _ hc => nomatch hc
  exponent := fun _ he => nomatch he

theorem chars_ofInteger (i : Int) : (ofInteger i).chars = Text.Decimal.signed i := by
  unfold Literal.chars ofInteger Text.Decimal.signed fractionChars exponentChars
  simp only [if_pos, List.append_nil, decide_eq_true_eq]

theorem exists_proper_chars (n : Number) : exists l : Literal, l.Proper ∧ l.chars = n.chars := by
  cases n with
  | integer i => exact ⟨_, proper_ofInteger i, chars_ofInteger i⟩
  | float x =>
      rcases CodeSurvey.Number.Shortest.exists_literal_chars x with ⟨l, hl, hchars, _⟩
      exact ⟨l, hl, hchars⟩

theorem integer_ne_float (i : Int) (x : Float) : (integer i).chars ≠ (float x).chars := by
  intro h
  rcases CodeSurvey.Number.Shortest.exists_literal_chars x with
    ⟨l, hl, hchars, _, _, hfloat⟩
  have hsame : l = ofInteger i := by
    rw [← hl.ofChars_chars, ← (proper_ofInteger i).ofChars_chars, hchars, chars_ofInteger]
    exact congrArg Literal.ofChars h.symm
  subst hsame
  exact hfloat.elim (fun hfraction => hfraction rfl) (fun hexponent => hexponent rfl)

/-- Different numbers have different texts; an integer is never written like a float. -/
theorem chars_inj {m n : Number} (h : m.chars = n.chars) : m = n := by
  cases m with
  | integer i =>
      cases n with
      | integer j =>
          have hsame : ofInteger i = ofInteger j := by
            rw [← (proper_ofInteger i).ofChars_chars, ← (proper_ofInteger j).ofChars_chars,
              chars_ofInteger, chars_ofInteger]
            exact congrArg Literal.ofChars h
          have hsign := decide_eq_decide.mp (congrArg Literal.negative hsame)
          have hdigits := congrArg (Text.Decimal.value ∘ Literal.whole) hsame
          have habs : i.natAbs = j.natAbs := by
            simpa only [Function.comp, ofInteger, Text.Decimal.value_digits] using hdigits
          have hij : i = j := by omega
          rw [hij]
      | float y => exact absurd h (integer_ne_float i y)
  | float x =>
      cases n with
      | integer j => exact absurd h.symm (integer_ne_float j x)
      | float y => rw [CodeSurvey.Number.Shortest.chars_injective h]

theorem isNumeral_of_mem {n : Number} {c : Char} (hc : c ∈ n.chars) : isNumeral c = true := by
  rcases exists_proper_chars n with ⟨l, hl, hchars⟩
  exact isNumeral_of_mem_chars hl (hchars ▸ hc)

theorem chars_ne_nil (n : Number) : n.chars ≠ [] := by
  rcases exists_proper_chars n with ⟨l, hl, hchars⟩
  rw [← hchars]
  unfold Literal.chars
  simp only
  split
  · exact List.cons_ne_nil _ _
  · exact List.append_ne_nil_of_left_ne_nil hl.nonempty _

end Number

/-- Nothing with which the text of a number could go on. -/
def Bounded (rest : List Char) : Prop :=
  forall c, rest.head? = some c -> isNumeral c = false

theorem bounded_nil : Bounded [] := by
  intro c hc
  cases hc

theorem bounded_cons {c : Char} (h : isNumeral c = false) (rest : List Char) :
    Bounded (c :: rest) := by
  intro d hd
  cases hd
  exact h

theorem Number.takeWhile_chars (n : Number) {rest : List Char} (h : Bounded rest) :
    (n.chars ++ rest).takeWhile isNumeral = n.chars := by
  have hnone : rest.takeWhile isNumeral = [] := by
    cases rest with
    | nil => rfl
    | cons c rest => rw [List.takeWhile_cons, h c rfl, if_neg Bool.false_ne_true]
  rw [List.takeWhile_append_of_pos fun c hc => n.isNumeral_of_mem hc, hnone, List.append_nil]

theorem Number.chars_append_inj {m n : Number} {rest rest' : List Char} (hrest : Bounded rest)
    (hrest' : Bounded rest') (h : m.chars ++ rest = n.chars ++ rest') :
    m = n ∧ rest = rest' := by
  have hchars : m.chars = n.chars := by
    rw [← m.takeWhile_chars hrest, ← n.takeWhile_chars hrest', h]
  exact ⟨Number.chars_inj hchars, List.append_cancel_left (hchars ▸ h)⟩

/-!
# Strings
-/

theorem Token.Lexer.finish_shift (l : Lexer) (earlier : List Token) :
    (l.shift earlier).finish = l.finish.shift earlier := by
  rcases l with ⟨mode, reversed⟩
  cases mode <;> rfl

/-- The first token is the string, whatever follows. -/
theorem Escape.quoted_append_inj {cs ds rest rest' : List Char}
    (h : quoted cs ++ rest = quoted ds ++ rest') : cs = ds ∧ rest = rest' := by
  have hfirst : forall cs rest,
      ((Token.Lexer.start.run (quoted cs ++ rest)).finish).reversed.getLast? =
        some (.text (some (String.ofList cs))) := by
    intro cs rest
    have hread := Token.firm_quoted cs [] rest
    have hrest := Token.Lexer.run_after [.text (some (String.ofList cs))] rest
    show ((Token.Lexer.after []).run (quoted cs ++ rest)).finish.reversed.getLast? = _
    rw [hread, List.nil_append, hrest, Token.Lexer.finish_shift]
    exact List.getLast?_concat
  have hchars : cs = ds := by
    have hsame := hfirst cs rest
    rw [h, hfirst ds rest'] at hsame
    injection hsame with hsame
    injection hsame with hsame
    injection hsame with hsame
    exact (String.ofList_injective hsame).symm
  exact ⟨hchars, List.append_cancel_left (hchars ▸ h)⟩

namespace Value

/-!
# Values
-/

/-- What a text begins with. -/
inductive Kind where
  | null
  | flag (value : Bool)
  | number
  | text
  | array
  | object

def kind : Value -> Kind
  | .null => .null
  | .flag b => .flag b
  | .number _ => .number
  | .text _ => .text
  | .array _ => .array
  | .object _ => .object

def Kind.ofChar? (c : Char) : Option Kind :=
  if isNumeral c then some .number
  else
    match c with
    | 'n' => some .null
    | 't' => some (.flag true)
    | 'f' => some (.flag false)
    | '"' => some .text
    | '[' => some .array
    | '\x7b' => some .object
    | _ => none

theorem exists_kind_eq (v : Value) (rest : List Char) :
    exists c cs, v.compactChars ++ rest = c :: cs ∧ Kind.ofChar? c = some v.kind := by
  cases v with
  | null => exact ⟨_, _, rfl, rfl⟩
  | flag b => cases b <;> exact ⟨_, _, rfl, rfl⟩
  | number n =>
      cases hchars : n.chars with
      | nil => exact absurd hchars n.chars_ne_nil
      | cons c cs =>
          have hc : isNumeral c = true := n.isNumeral_of_mem (hchars ▸ List.mem_cons_self)
          refine ⟨c, cs ++ rest, ?_, if_pos hc⟩
          unfold compactChars
          rw [hchars]
          rfl
  | text s => exact ⟨_, _, rfl, rfl⟩
  | array items => cases items <;> exact ⟨_, _, rfl, rfl⟩
  | object members => cases members <;> exact ⟨_, _, rfl, rfl⟩

theorem kind_eq {v w : Value} {rest rest' : List Char}
    (h : v.compactChars ++ rest = w.compactChars ++ rest') : v.kind = w.kind := by
  rcases exists_kind_eq v rest with ⟨c, cs, hv, hc⟩
  rcases exists_kind_eq w rest' with ⟨d, ds, hw, hd⟩
  rw [hv, hw] at h
  injection h with h _
  rw [h, hd] at hc
  exact (Option.some.inj hc).symm

theorem bounded_compactItems (vs : List Value) (rest : List Char) :
    Bounded (compactItems vs ++ rest) := by
  cases vs with
  | nil => exact bounded_cons rfl _
  | cons v vs => exact bounded_cons rfl _

theorem bounded_compactMembers (ms : List (String × Value)) (rest : List Char) :
    Bounded (compactMembers ms ++ rest) := by
  cases ms with
  | nil => exact bounded_cons rfl _
  | cons m ms => exact bounded_cons rfl _

theorem array_nil_ne_cons (v : Value) (vs : List Value) (rest rest' : List Char) :
    (Value.array []).compactChars ++ rest ≠ (Value.array (v :: vs)).compactChars ++ rest' := by
  intro h
  have hinside : ']' :: rest = (v.compactChars ++ compactItems vs) ++ rest' :=
    (List.cons.inj h).2
  rcases exists_kind_eq v (compactItems vs ++ rest') with ⟨c, cs, hv, hc⟩
  rw [List.append_assoc, hv] at hinside
  rw [← (List.cons.inj hinside).1] at hc
  cases hc

theorem object_nil_ne_cons (m : String × Value) (ms : List (String × Value))
    (rest rest' : List Char) :
    (Value.object []).compactChars ++ rest ≠ (Value.object (m :: ms)).compactChars ++ rest' := by
  rcases m with ⟨key, v⟩
  intro h
  exact nomatch (List.cons.inj (List.cons.inj h).2).1

theorem next_inj {c d : Char} {cs ds es fs rest rest' : List Char}
    (h : c :: (cs ++ ds) ++ rest = d :: (es ++ fs) ++ rest') :
    cs ++ (ds ++ rest) = es ++ (fs ++ rest') := by
  have htail := (List.cons.inj h).2
  rw [← List.append_assoc, ← List.append_assoc]
  exact htail

mutual

theorem compactChars_append_inj (v w : Value) {rest rest' : List Char} (hrest : Bounded rest)
    (hrest' : Bounded rest') (h : v.compactChars ++ rest = w.compactChars ++ rest') :
    v = w ∧ rest = rest' := by
  have hkind := kind_eq h
  cases v with
  | null =>
      cases w with
      | null => exact ⟨rfl, List.append_cancel_left h⟩
      | _ => cases hkind
  | flag b =>
      cases w with
      | flag b' =>
          cases hkind
          exact ⟨rfl, List.append_cancel_left h⟩
      | _ => cases hkind
  | number m =>
      cases w with
      | number n =>
          rcases Number.chars_append_inj hrest hrest' h with ⟨rfl, hsame⟩
          exact ⟨rfl, hsame⟩
      | _ => cases hkind
  | text s =>
      cases w with
      | text t =>
          rcases Escape.quoted_append_inj h with ⟨htext, hsame⟩
          rw [String.toList_inj.mp htext]
          exact ⟨rfl, hsame⟩
      | _ => cases hkind
  | array vs =>
      cases w with
      | array ws =>
          rcases compactArray_append_inj vs ws h with ⟨rfl, hsame⟩
          exact ⟨rfl, hsame⟩
      | _ => cases hkind
  | object ms =>
      cases w with
      | object ms' =>
          rcases compactObject_append_inj ms ms' h with ⟨rfl, hsame⟩
          exact ⟨rfl, hsame⟩
      | _ => cases hkind
termination_by structural v

theorem compactArray_append_inj (vs ws : List Value) {rest rest' : List Char}
    (h : (Value.array vs).compactChars ++ rest = (Value.array ws).compactChars ++ rest') :
    vs = ws ∧ rest = rest' := by
  cases vs with
  | nil =>
      cases ws with
      | nil => exact ⟨rfl, List.append_cancel_left h⟩
      | cons w ws => exact absurd h (array_nil_ne_cons w ws rest rest')
  | cons v vs =>
      cases ws with
      | nil => exact absurd h.symm (array_nil_ne_cons v vs rest' rest)
      | cons w ws =>
          rcases compactChars_append_inj v w (bounded_compactItems vs rest)
            (bounded_compactItems ws rest') (next_inj h) with ⟨rfl, hitems⟩
          rcases compactItems_append_inj vs ws hitems with ⟨rfl, hsame⟩
          exact ⟨rfl, hsame⟩
termination_by structural vs

theorem compactItems_append_inj (vs ws : List Value) {rest rest' : List Char}
    (h : compactItems vs ++ rest = compactItems ws ++ rest') : vs = ws ∧ rest = rest' := by
  cases vs with
  | nil =>
      cases ws with
      | nil => exact ⟨rfl, List.append_cancel_left h⟩
      | cons w ws => exact nomatch h
  | cons v vs =>
      cases ws with
      | nil => exact nomatch h
      | cons w ws =>
          rcases compactChars_append_inj v w (bounded_compactItems vs rest)
            (bounded_compactItems ws rest') (next_inj h) with ⟨rfl, hitems⟩
          rcases compactItems_append_inj vs ws hitems with ⟨rfl, hsame⟩
          exact ⟨rfl, hsame⟩
termination_by structural vs

theorem compactObject_append_inj (ms ms' : List (String × Value)) {rest rest' : List Char}
    (h : (Value.object ms).compactChars ++ rest = (Value.object ms').compactChars ++ rest') :
    ms = ms' ∧ rest = rest' := by
  cases ms with
  | nil =>
      cases ms' with
      | nil => exact ⟨rfl, List.append_cancel_left h⟩
      | cons m' ms' => exact absurd h (object_nil_ne_cons m' ms' rest rest')
  | cons m ms =>
      cases ms' with
      | nil => exact absurd h.symm (object_nil_ne_cons m ms rest' rest)
      | cons m' ms' =>
          rcases compactMember_append_inj m m' (bounded_compactMembers ms rest)
            (bounded_compactMembers ms' rest') (next_inj h) with ⟨rfl, hmembers⟩
          rcases compactMembers_append_inj ms ms' hmembers with ⟨rfl, hsame⟩
          exact ⟨rfl, hsame⟩
termination_by structural ms

theorem compactMember_append_inj (m m' : String × Value) {rest rest' : List Char}
    (hrest : Bounded rest) (hrest' : Bounded rest')
    (h : compactMember m ++ rest = compactMember m' ++ rest') : m = m' ∧ rest = rest' := by
  rcases m with ⟨key, v⟩
  rcases m' with ⟨key', w⟩
  unfold compactMember at h
  rw [List.append_assoc, List.append_assoc] at h
  rcases Escape.quoted_append_inj h with ⟨hkey, hvalue⟩
  rcases compactChars_append_inj v w hrest hrest' (List.cons.inj hvalue).2 with ⟨rfl, hsame⟩
  rw [String.toList_inj.mp hkey]
  exact ⟨rfl, hsame⟩
termination_by structural m

theorem compactMembers_append_inj (ms ms' : List (String × Value)) {rest rest' : List Char}
    (h : compactMembers ms ++ rest = compactMembers ms' ++ rest') :
    ms = ms' ∧ rest = rest' := by
  cases ms with
  | nil =>
      cases ms' with
      | nil => exact ⟨rfl, List.append_cancel_left h⟩
      | cons m' ms' => exact nomatch h
  | cons m ms =>
      cases ms' with
      | nil => exact nomatch h
      | cons m' ms' =>
          rcases compactMember_append_inj m m' (bounded_compactMembers ms rest)
            (bounded_compactMembers ms' rest') (next_inj h) with ⟨rfl, hmembers⟩
          rcases compactMembers_append_inj ms ms' hmembers with ⟨rfl, hsame⟩
          exact ⟨rfl, hsame⟩
termination_by structural ms

end

/-- Different values have different texts. -/
theorem compact_injective : Function.Injective compact := by
  intro v w h
  have hchars : v.compactChars ++ [] = w.compactChars ++ [] := by
    rw [List.append_nil, List.append_nil]
    exact String.ofList_injective h
  exact (compactChars_append_inj v w bounded_nil bounded_nil hchars).1

/-!
# The order of members
-/

theorem insertMember_comm {key key' : String} (hne : key ≠ key') (v w : Value)
    (ms : List (String × Value)) :
    insertMember key v (insertMember key' w ms) =
      insertMember key' w (insertMember key v ms) := by
  induction ms with
  | nil => grind [insertMember]
  | cons m ms ih => grind [insertMember]

theorem sortMembers_eq_of_perm {ms ms' : List (String × Value)} (h : ms.Perm ms')
    (hnodup : (ms.map Prod.fst).Nodup) : sortMembers ms = sortMembers ms' := by
  unfold sortMembers
  apply h.foldl_eq'
  intro m hm m' hm' sorted
  by_cases hkey : m.1 = m'.1
  · rw [List.inj_on_of_nodup_map hnodup hm hm' hkey]
  · exact insertMember_comm (Ne.symm hkey) m'.2 m.2 sorted

theorem insertMember_perm {key : String} (v : Value) {ms : List (String × Value)}
    (hkey : key ∉ ms.map Prod.fst) : (insertMember key v ms).Perm ((key, v) :: ms) := by
  induction ms with
  | nil => exact List.Perm.refl _
  | cons m ms ih =>
      rcases m with ⟨k, w⟩
      rw [List.map_cons, List.mem_cons, not_or] at hkey
      unfold insertMember
      rw [if_neg hkey.1]
      split
      · exact List.Perm.refl _
      · exact ((ih hkey.2).cons (k, w)).trans (List.Perm.swap _ _ _)

theorem sortMembers_perm {ms : List (String × Value)} (hnodup : (ms.map Prod.fst).Nodup) :
    (sortMembers ms).Perm ms := by
  induction ms using List.reverseRecOn with
  | nil => exact List.Perm.refl _
  | append_singleton ms m ih =>
      rw [List.map_append, List.map_singleton] at hnodup
      have hcons := (List.perm_append_singleton _ _).nodup_iff.mp hnodup
      have hsorted := ih (List.nodup_cons.mp hcons).2
      have hlast : sortMembers (ms ++ [m]) = insertMember m.1 m.2 (sortMembers ms) :=
        List.foldl_append
      have hnew : m.1 ∉ (sortMembers ms).map Prod.fst := fun hmem =>
        (List.nodup_cons.mp hcons).1 ((hsorted.map Prod.fst).subset hmem)
      rw [hlast]
      exact ((insertMember_perm m.2 hnew).trans (hsorted.cons m)).trans
        (List.perm_append_singleton m ms).symm

theorem canonicalMembers_eq_map (ms : List (String × Value)) :
    canonicalMembers ms = ms.map fun m => (m.1, m.2.canonical) := by
  induction ms with
  | nil => rfl
  | cons m ms ih =>
      rcases m with ⟨key, v⟩
      unfold canonicalMembers
      rw [ih]
      rfl

theorem canonical_object (ms : List (String × Value)) :
    (object ms).canonical = object (sortMembers (ms.map fun m => (m.1, m.2.canonical))) := by
  show object (sortMembers (canonicalMembers ms)) = _
  rw [canonicalMembers_eq_map]

/-- Two values are the same, but for the order in which members are listed. -/
def Alike (v w : Value) : Prop :=
  v.canonical = w.canonical

theorem alike_object_iff {ms ms' : List (String × Value)} (hms : (ms.map Prod.fst).Nodup)
    (hms' : (ms'.map Prod.fst).Nodup) :
    Alike (.object ms) (.object ms') ↔
      (ms.map fun m => (m.1, m.2.canonical)).Perm (ms'.map fun m => (m.1, m.2.canonical)) := by
  have hnodup : forall {ms : List (String × Value)}, (ms.map Prod.fst).Nodup ->
      ((ms.map fun m => (m.1, m.2.canonical)).map Prod.fst).Nodup := by
    intro ms hms
    rw [List.map_map]
    exact hms
  unfold Alike
  rw [canonical_object, canonical_object]
  constructor
  · intro h
    injection h with h
    exact (sortMembers_perm (hnodup hms)).symm.trans (h ▸ sortMembers_perm (hnodup hms'))
  · exact fun h => congrArg object (sortMembers_eq_of_perm h (hnodup hms))

theorem alike_of_compact_eq {v w : Value}
    (h : v.canonical.compact = w.canonical.compact) : Alike v w :=
  compact_injective h

end Value
end Json
end CodeSurvey
