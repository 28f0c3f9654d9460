import CodeSurvey.Json.Reader
import CodeSurvey.Proofs.Json.Printing
import CodeSurvey.Proofs.Steps

/-!
# Reading what is written: compact texts

The compact text of a value consists of the same tokens as the pretty one, without the blanks
between them, and so it shows the outline of this value.
-/

namespace CodeSurvey
namespace Json

open Token (Firm Spells Delimited)

namespace Value

theorem delimited_compactItems (vs : List Value) (rest : List Char) :
    Delimited (compactItems vs ++ rest) := by
  cases vs with
  | nil => exact delimited_cons _ (by decide)
  | cons v vs => exact delimited_cons _ (by decide)

theorem delimited_compactMembers (ms : List (String × Value)) (rest : List Char) :
    Delimited (compactMembers ms ++ rest) := by
  cases ms with
  | nil => exact delimited_cons _ (by decide)
  | cons m ms => exact delimited_cons _ (by decide)

theorem firm_compactItems {vs : List Value}
    (h : forall v, v ∈ vs -> Spells v.compactChars v.tokens) :
    Firm (compactItems vs) (itemTokens vs) := by
  induction vs with
  | nil => exact Token.firm_endArray
  | cons v vs ih =>
      have hrest := ih fun w hw => h w (List.mem_cons_of_mem _ hw)
      have hitem := (h v List.mem_cons_self).append hrest (delimited_compactItems vs)
      unfold compactItems itemTokens
      exact Token.firm_comma.append hitem

theorem spells_compactMember {m : String × Value} (h : Spells m.2.compactChars m.2.tokens) :
    Spells (compactMember m) (memberTokens m) := by
  rcases m with ⟨key, v⟩
  have hmember := (Token.firm_quoted key.toList).append_spells (Token.firm_colon.append_spells h)
  rw [String.ofList_toList] at hmember
  unfold compactMember memberTokens
  exact hmember

theorem firm_compactMembers {ms : List (String × Value)}
    (h : forall m, m ∈ ms -> Spells m.2.compactChars m.2.tokens) :
    Firm (compactMembers ms) (membersTokens ms) := by
  induction ms with
  | nil => exact Token.firm_endObject
  | cons m ms ih =>
      have hrest := ih fun m' hm' => h m' (List.mem_cons_of_mem _ hm')
      have hmember := (spells_compactMember (h m List.mem_cons_self)).append hrest
        (delimited_compactMembers ms)
      unfold compactMembers membersTokens
      exact Token.firm_comma.append hmember

theorem Readable.spells_compact {depth : Nat} {v : Value} (h : Readable depth v) :
    Spells v.compactChars v.tokens := by
  induction h with
  | null => exact Token.firm_null.spells
  | @flag _ b =>
      cases b with
      | true => exact Token.firm_true.spells
      | false => exact Token.firm_false.spells
  | number hn => exact hn.spells
  | @text _ s =>
      have hquoted := (Token.firm_quoted s.toList).spells
      rw [String.ofList_toList] at hquoted
      exact hquoted
  | @array items depth _ ih =>
      cases items with
      | nil => exact (Token.firm_beginArray.append Token.firm_endArray).spells
      | cons v vs =>
          have hrest := firm_compactItems fun w hw => ih w (List.mem_cons_of_mem _ hw)
          have hfirst := (ih v List.mem_cons_self).append hrest (delimited_compactItems vs)
          unfold compactChars tokens
          exact (Token.firm_beginArray.append hfirst).spells
  | @object members depth _ ih =>
      cases members with
      | nil => exact (Token.firm_beginObject.append Token.firm_endObject).spells
      | cons m ms =>
          have hrest := firm_compactMembers fun m' hm' => ih m' (List.mem_cons_of_mem _ hm')
          have hfirst := (spells_compactMember (ih m List.mem_cons_self)).append hrest
            (delimited_compactMembers ms)
          unfold compactChars tokens
          exact (Token.firm_beginObject.append hfirst).spells

end Value

open Value (Readable)

theorem Outline.ofText_compact {v : Value} (h : Readable depthLimit v) :
    ofText v.compact = (ofValue v, false) := by
  have hbuilt : v.tokens.foldl Builder.step (.building [] .value) = Builder.put (ofValue v) [] :=
    foldl_tokens h (Nat.le_of_eq (Nat.zero_add depthLimit))
  unfold ofText Builder.start Value.compact
  rw [h.spells_compact.ofText, hbuilt]
  rfl

theorem Reader.readText_eq_ok_iff {r : Reader a} {s : String} {x : a} :
    r.readText s = .ok x ↔ exists o, Outline.ofText s = (o, false) ∧ r o = .ok x := by
  unfold readText
  rcases Outline.ofText s with ⟨o, trailing⟩
  constructor
  · intro h
    rcases bind_eq_ok_iff.mp h with ⟨y, hread, h⟩
    cases trailing with
    | true => cases h
    | false =>
        cases h
        exact ⟨o, rfl, hread⟩
  · rintro ⟨o, ⟨⟩, hread⟩
    exact bind_eq_ok_iff.mpr ⟨x, hread, rfl⟩

theorem Reader.readText_compact {r : Reader a} {v : Value} (h : Readable Outline.depthLimit v)
    {x : a} : r.readText v.compact = .ok x ↔ r (.ofValue v) = .ok x := by
  rw [readText_eq_ok_iff, Outline.ofText_compact h]
  constructor
  · rintro ⟨o, heq, hread⟩
    cases heq
    exact hread
  · exact fun hread => ⟨_, rfl, hread⟩

end Json
end CodeSurvey
