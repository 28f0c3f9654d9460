import CodeSurvey.Json.Outline
import CodeSurvey.Json.Printer
import CodeSurvey.Proofs.Json.Numeral

/-!
# Reading what is written: values

The text of a value is read as this value again, with the members of its objects in the
order of their keys.  The numbers in it have to be legible, and it must not be nested too
deep.
-/

namespace CodeSurvey
namespace Json

open Token (Firm Spells Delimited)

namespace Value

/-!
# Values as tokens
-/

mutual

/-- What the text of a value consists of. -/
def tokens : Value -> List Token
  | .null => [.null]
  | .flag b => [.flag b]
  | .number n => [.number (some n)]
  | .text s => [.text (some s)]
  | .array [] => [.beginArray, .endArray]
  | .array (v :: vs) => .beginArray :: (tokens v ++ itemTokens vs)
  | .object [] => [.beginObject, .endObject]
  | .object (m :: ms) => .beginObject :: (memberTokens m ++ membersTokens ms)

def itemTokens : List Value -> List Token
  | [] => [.endArray]
  | v :: vs => .comma :: (tokens v ++ itemTokens vs)

def memberTokens : String × Value -> List Token
  | (key, v) => .text (some key) :: .colon :: tokens v

def membersTokens : List (String × Value) -> List Token
  | [] => [.endObject]
  | m :: ms => .comma :: (memberTokens m ++ membersTokens ms)

end

/-- The text of the value can be read: its numbers are legible, and no more than `depth` arrays
and objects of it stand inside of one another. -/
inductive Readable : Nat -> Value -> Prop where
  | null : Readable depth .null
  | flag : Readable depth (.flag b)
  | number (h : n.Legible) : Readable depth (.number n)
  | text : Readable depth (.text s)
  | array (h : forall v, v ∈ items -> Readable depth v) : Readable (depth + 1) (.array items)
  | object (h : forall m, m ∈ members -> Readable depth m.2) :
      Readable (depth + 1) (.object members)

/-!
# The pretty form
-/

theorem firm_newLine (depth : Nat) : Firm (newLine depth) [] := by
  apply Token.firm_blanks
  intro c hc
  cases List.mem_cons.mp hc with
  | inl heq => exact heq ▸ rfl
  | inr hmem => exact List.eq_of_mem_replicate hmem ▸ rfl

theorem delimited_cons {c : Char} (rest : List Char)
    (hc : Text.Decimal.isDigit c = false ∧ c ≠ '.' ∧ c ≠ 'e' ∧ c ≠ 'E') :
    Delimited (c :: rest) := by
  intro d hd
  cases hd
  exact hc

theorem delimited_prettyItems (depth : Nat) (vs : List Value) (rest : List Char) :
    Delimited (prettyItems depth vs ++ rest) := by
  cases vs with
  | nil => exact delimited_cons _ (by decide)
  | cons v vs => exact delimited_cons _ (by decide)

theorem delimited_prettyMembers (depth : Nat) (ms : List (String × Value)) (rest : List Char) :
    Delimited (prettyMembers depth ms ++ rest) := by
  cases ms with
  | nil => exact delimited_cons _ (by decide)
  | cons m ms => exact delimited_cons _ (by decide)

theorem firm_prettyItems (depth : Nat) {vs : List Value}
    (h : forall v, v ∈ vs -> Spells (prettyChars (depth + 1) v) v.tokens) :
    Firm (prettyItems depth vs) (itemTokens vs) := by
  induction vs with
  | nil => exact (firm_newLine depth).append Token.firm_endArray
  | cons v vs ih =>
      have hrest := ih fun w hw => h w (List.mem_cons_of_mem _ hw)
      have hitem := (h v List.mem_cons_self).append hrest (delimited_prettyItems depth vs)
      have hline := Token.firm_comma.append ((firm_newLine (depth + 1)).append hitem)
      unfold prettyItems itemTokens
      simpa only [List.append_assoc, List.cons_append, List.nil_append] using hline

theorem spells_prettyMember (depth : Nat) {m : String × Value}
    (h : Spells (prettyChars depth m.2) m.2.tokens) :
    Spells (prettyMember depth m) (memberTokens m) := by
  rcases m with ⟨key, v⟩
  have hblank : Firm [' '] [] := Token.firm_blank rfl
  have hmember := (Token.firm_quoted key.toList).append_spells
    (Token.firm_colon.append_spells (hblank.append_spells h))
  rw [String.ofList_toList] at hmember
  unfold prettyMember memberTokens
  simpa only [List.append_assoc, List.cons_append, List.nil_append] using hmember

theorem firm_prettyMembers (depth : Nat) {ms : List (String × Value)}
    (h : forall m, m ∈ ms -> Spells (prettyChars (depth + 1) m.2) m.2.tokens) :
    Firm (prettyMembers depth ms) (membersTokens ms) := by
  induction ms with
  | nil => exact (firm_newLine depth).append Token.firm_endObject
  | cons m ms ih =>
      have hrest := ih fun m' hm' => h m' (List.mem_cons_of_mem _ hm')
      have hmember := (spells_prettyMember (depth + 1) (h m List.mem_cons_self)).append hrest
        (delimited_prettyMembers depth ms)
      have hline := Token.firm_comma.append ((firm_newLine (depth + 1)).append hmember)
      unfold prettyMembers membersTokens
      simpa only [List.append_assoc, List.cons_append, List.nil_append] using hline

theorem Readable.spells_pretty {limit : Nat} {v : Value} (h : Readable limit v) (depth : Nat) :
    Spells (prettyChars depth v) v.tokens := by
  induction h generalizing depth with
  | null => exact Token.firm_null.spells
  | @flag _ b =>
      cases b with
      | true => exact Token.firm_true.spells
      | false => exact Token.firm_false.spells
  | number hn => exact hn.spells
  | @text _ s =>
      have hquoted := (Token.firm_quoted s.toList).spells
      rw [String.ofList_toList] at hquoted
      exact hquoted
  | @array items limit _ ih =>
      cases items with
      | nil => exact (Token.firm_beginArray.append Token.firm_endArray).spells
      | cons v vs =>
          have hrest := firm_prettyItems depth fun w hw => ih w (List.mem_cons_of_mem _ hw) _
          have hfirst := (ih v List.mem_cons_self (depth + 1)).append hrest
            (delimited_prettyItems depth vs)
          have hall := Token.firm_beginArray.append ((firm_newLine (depth + 1)).append hfirst)
          unfold prettyChars tokens
          simpa only [List.append_assoc, List.cons_append, List.nil_append] using hall.spells
  | @object members limit _ ih =>
      cases members with
      | nil => exact (Token.firm_beginObject.append Token.firm_endObject).spells
      | cons m ms =>
          have hrest := firm_prettyMembers depth fun m' hm' => ih m' (List.mem_cons_of_mem _ hm') _
          have hfirst := (spells_prettyMember (depth + 1) (ih m List.mem_cons_self _)).append hrest
            (delimited_prettyMembers depth ms)
          have hall := Token.firm_beginObject.append ((firm_newLine (depth + 1)).append hfirst)
          unfold prettyChars tokens
          simpa only [List.append_assoc, List.cons_append, List.nil_append] using hall.spells

theorem Readable.ofText_pretty {limit : Nat} {v : Value} (h : Readable limit v) :
    Token.ofText v.pretty = v.tokens :=
  (h.spells_pretty 0).ofText

end Value

/-!
# Building a value
-/

namespace Outline

open Value (Readable)

theorem foldl_firstItem (v : Value) (more : List Token) (stack : List Frame) :
    (v.tokens ++ more).foldl Builder.step (.building stack .firstItem) =
      (v.tokens ++ more).foldl Builder.step (.building stack .value) := by
  cases v with
  | array items => cases items <;> rfl
  | object members => cases members <;> rfl
  | _ => rfl

theorem foldl_itemTokens {vs : List Value} {stack : List Frame}
    (hdepth : stack.length < depthLimit)
    (h : forall v, v ∈ vs -> forall frame,
      v.tokens.foldl Builder.step (.building (frame :: stack) .value) =
        Builder.put (ofValue v) (frame :: stack))
    (reversed : List Outline) :
    (Value.itemTokens vs).foldl Builder.step (.building (.array reversed :: stack) .separator) =
      Builder.put (.array (reversed.reverse ++ ofItems vs) .closed) stack := by
  induction vs generalizing reversed with
  | nil =>
      have hshallow : Builder.atDepth stack (.array reversed.reverse .closed) =
          .array reversed.reverse .closed := if_neg (Nat.not_le.mpr hdepth)
      show Builder.put (Builder.atDepth stack (.array reversed.reverse .closed)) stack = _
      rw [hshallow]
      simp only [ofItems, List.append_nil]
  | cons v vs ih =>
      have hitem := h v List.mem_cons_self (.array reversed)
      have hrest := ih (fun w hw => h w (List.mem_cons_of_mem _ hw)) (ofValue v :: reversed)
      show (v.tokens ++ Value.itemTokens vs).foldl Builder.step
        (.building (.array reversed :: stack) .value) = _
      rw [List.foldl_append, hitem]
      rw [List.reverse_cons, List.append_assoc] at hrest
      exact hrest

theorem foldl_memberTokens {m : String × Value} {members : List (Option String × Outline)}
    {key : Option String} {stack : List Frame} (want : Want)
    (hwant : want = .key ∨ want = .firstKey)
    (h : m.2.tokens.foldl Builder.step (.building (.object members (some m.1) :: stack) .value) =
      Builder.put (ofValue m.2) (.object members (some m.1) :: stack)) :
    (Value.memberTokens m).foldl Builder.step (.building (.object members key :: stack) want) =
      .building (.object ((some m.1, ofValue m.2) :: members) (some m.1) :: stack)
        .separator := by
  rcases m with ⟨k, v⟩
  rcases hwant with rfl | rfl
  · exact h
  · exact h

theorem foldl_membersTokens {ms : List (String × Value)} {stack : List Frame}
    (hdepth : stack.length < depthLimit)
    (h : forall m, m ∈ ms -> forall frame,
      m.2.tokens.foldl Builder.step (.building (frame :: stack) .value) =
        Builder.put (ofValue m.2) (frame :: stack))
    (members : List (Option String × Outline)) (key : Option String) :
    (Value.membersTokens ms).foldl Builder.step
        (.building (.object members key :: stack) .separator) =
      Builder.put (.object (members.reverse ++ ofMembers ms) .closed) stack := by
  induction ms generalizing members key with
  | nil =>
      have hshallow : Builder.atDepth stack (.object members.reverse .closed) =
          .object members.reverse .closed := if_neg (Nat.not_le.mpr hdepth)
      show Builder.put (Builder.atDepth stack (.object members.reverse .closed)) stack = _
      rw [hshallow]
      simp only [ofMembers, List.append_nil]
  | cons m ms ih =>
      have hmember := h m List.mem_cons_self (.object members (some m.1))
      have hrest := ih (fun m' hm' => h m' (List.mem_cons_of_mem _ hm'))
        ((some m.1, ofValue m.2) :: members) (some m.1)
      show (Value.memberTokens m ++ Value.membersTokens ms).foldl Builder.step
        (.building (.object members key :: stack) .key) = _
      rw [List.foldl_append, foldl_memberTokens .key (Or.inl rfl) hmember]
      rw [List.reverse_cons, List.append_assoc] at hrest
      exact hrest

theorem foldl_tokens {limit : Nat} {v : Value} (h : Readable limit v) {stack : List Frame}
    (hdepth : stack.length + limit ≤ depthLimit) :
    v.tokens.foldl Builder.step (.building stack .value) = Builder.put (ofValue v) stack := by
  -- Every bracket adds a frame to the stack and takes one from the depth that is left.
  induction h generalizing stack with
  | null => rfl
  | flag => rfl
  | number hn => rfl
  | text => rfl
  | @array items limit _ ih =>
      have hstack : stack.length < depthLimit := by omega
      have hitems : forall v, v ∈ items -> forall frame,
          v.tokens.foldl Builder.step (.building (frame :: stack) .value) =
            Builder.put (ofValue v) (frame :: stack) := by
        intro v hv frame
        apply ih v hv
        rw [List.length_cons]
        omega
      cases items with
      | nil => exact foldl_itemTokens hstack hitems []
      | cons v vs =>
          show (v.tokens ++ Value.itemTokens vs).foldl Builder.step
            (.building (.array [] :: stack) .firstItem) = _
          rw [foldl_firstItem, List.foldl_append, hitems v List.mem_cons_self]
          exact foldl_itemTokens hstack (fun w hw => hitems w (List.mem_cons_of_mem _ hw)) _
  | @object members limit _ ih =>
      have hstack : stack.length < depthLimit := by omega
      have hmembers : forall m, m ∈ members -> forall frame,
          m.2.tokens.foldl Builder.step (.building (frame :: stack) .value) =
            Builder.put (ofValue m.2) (frame :: stack) := by
        intro m hm frame
        apply ih m hm
        rw [List.length_cons]
        omega
      cases members with
      | nil => exact foldl_membersTokens hstack hmembers [] none
      | cons m ms =>
          show (Value.memberTokens m ++ Value.membersTokens ms).foldl Builder.step
            (.building (.object [] none :: stack) .firstKey) = _
          rw [List.foldl_append,
            foldl_memberTokens .firstKey (Or.inr rfl) (hmembers m List.mem_cons_self _)]
          exact foldl_membersTokens hstack
            (fun m' hm' => hmembers m' (List.mem_cons_of_mem _ hm')) _ _

theorem ofText_pretty {v : Value} (h : Readable depthLimit v) :
    ofText v.pretty = (ofValue v, false) := by
  have hbuilt : v.tokens.foldl Builder.step (.building [] .value) = Builder.put (ofValue v) [] :=
    foldl_tokens h (Nat.le_of_eq (Nat.zero_add depthLimit))
  unfold ofText Builder.start
  rw [h.ofText_pretty, hbuilt]
  rfl

end Outline

/-!
# Members in order
-/

namespace Value

mutual

/-- The value as it is when it has been read: the members of its objects are in the order
of their keys. -/
def canonical : Value -> Value
  | .array items => .array (canonicalItems items)
  | .object members => .object (sortMembers (canonicalMembers members))
  | v => v

def canonicalItems : List Value -> List Value
  | [] => []
  | v :: vs => canonical v :: canonicalItems vs

def canonicalMembers : List (String × Value) -> List (String × Value)
  | [] => []
  | (key, v) :: rest => (key, canonical v) :: canonicalMembers rest

end

end Value

namespace Outline

mutual

theorem value?_ofValue (v : Value) : (ofValue v).value? = .ok v.canonical := by
  cases v with
  | array items =>
      unfold ofValue value? Value.canonical
      rw [items?_ofItems items]
      rfl
  | object members =>
      unfold ofValue value? Value.canonical
      rw [members?_ofMembers members]
      rfl
  | _ => rfl

theorem items?_ofItems (vs : List Value) : items? (ofItems vs) = .ok (Value.canonicalItems vs) := by
  cases vs with
  | nil => rfl
  | cons v vs =>
      unfold ofItems items? Value.canonicalItems
      rw [value?_ofValue v, items?_ofItems vs]
      rfl

theorem members?_ofMembers (ms : List (String × Value)) :
    members? (ofMembers ms) = .ok (Value.canonicalMembers ms) := by
  cases ms with
  | nil => rfl
  | cons m ms =>
      rcases m with ⟨key, v⟩
      unfold ofMembers members? Value.canonicalMembers
      rw [value?_ofValue v, members?_ofMembers ms]
      rfl

end

end Outline

/-- What is written is read again. -/
theorem Value.parse_pretty {v : Value} (h : Value.Readable Outline.depthLimit v) :
    Value.parse v.pretty = .ok v.canonical := by
  unfold Value.parse
  rw [Outline.ofText_pretty h]
  simp only [Outline.value?_ofValue]
  rfl

end Json
end CodeSurvey
