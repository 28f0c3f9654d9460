import CodeSurvey.Json.Token

/-!
# Reading what is written: tokens

What is printed for a word or a string is read as one token, wherever a token may begin.  A
number has to be followed by something that cannot go on with it.
-/

namespace CodeSurvey
namespace Json
namespace Token

namespace Lexer

/-- Between tokens, when these have been read. -/
def after (tokens : List Token) : Lexer :=
  { mode := .blank, reversed := tokens.reverse }

theorem run_cons (l : Lexer) (c : Char) (cs : List Char) :
    l.run (c :: cs) = (l.step c).run cs := rfl

end Lexer

open Lexer (after)

/-!
# Spelling
-/

/-- Nothing with which a number could go on. -/
def Delimited (rest : List Char) : Prop :=
  forall c, rest.head? = some c ->
    Text.Decimal.isDigit c = false ∧ c ≠ '.' ∧ c ≠ 'e' ∧ c ≠ 'E'

/-- The characters are read as these tokens, whatever comes before and behind. -/
def Firm (cs : List Char) (tokens : List Token) : Prop :=
  forall before rest,
    ((after before).run (cs ++ rest)).finish = ((after (before ++ tokens)).run rest).finish

/-- The characters are read as these tokens, if nothing goes on with their last number. -/
def Spells (cs : List Char) (tokens : List Token) : Prop :=
  forall before rest, Delimited rest ->
    ((after before).run (cs ++ rest)).finish = ((after (before ++ tokens)).run rest).finish

variable {cs ds : List Char} {tokens more : List Token}

theorem delimited_nil : Delimited [] := by
  intro c hc
  cases hc

theorem Firm.spells (h : Firm cs tokens) : Spells cs tokens :=
  fun before rest _ => h before rest

theorem firm_nil : Firm [] [] := by
  intro before rest
  rw [List.append_nil, List.nil_append]

theorem Firm.append (h : Firm cs tokens) (h' : Firm ds more) :
    Firm (cs ++ ds) (tokens ++ more) := by
  intro before rest
  rw [List.append_assoc, h before (ds ++ rest), h' (before ++ tokens) rest, List.append_assoc]

theorem Firm.append_spells (h : Firm cs tokens) (h' : Spells ds more) :
    Spells (cs ++ ds) (tokens ++ more) := by
  intro before rest hrest
  rw [List.append_assoc, h before (ds ++ rest), h' (before ++ tokens) rest hrest,
    List.append_assoc]

/-- What is delimited by what follows is firm together with it. -/
theorem Spells.append (h : Spells cs tokens) (h' : Firm ds more)
    (hdelimited : forall rest, Delimited (ds ++ rest)) : Firm (cs ++ ds) (tokens ++ more) := by
  intro before rest
  rw [List.append_assoc, h before (ds ++ rest) (hdelimited rest), h' (before ++ tokens) rest,
    List.append_assoc]

theorem Spells.ofText (h : Spells cs tokens) : ofText (String.ofList cs) = tokens := by
  have hread := h [] [] delimited_nil
  rw [List.append_nil, List.nil_append] at hread
  unfold Token.ofText
  rw [String.toList_ofList]
  show (((after []).run cs).finish).reversed.reverse = tokens
  rw [hread]
  exact List.reverse_reverse _

/-!
# Blanks, marks and words
-/

theorem firm_blank {c : Char} (hc : Lexer.isBlank c = true) : Firm [c] [] := by
  intro before rest
  have hstep : (after before).step c = after before := by
    show (after before).begin c = after before
    unfold Lexer.begin
    rw [if_pos hc]
    rfl
  rw [List.singleton_append, Lexer.run_cons, hstep, List.append_nil]

theorem firm_blanks (h : forall c, c ∈ cs -> Lexer.isBlank c = true) : Firm cs [] := by
  induction cs with
  | nil => exact firm_nil
  | cons c cs ih =>
      have hhead := firm_blank (h c List.mem_cons_self)
      exact hhead.append (ih fun d hd => h d (List.mem_cons_of_mem _ hd))

theorem firm_of_run {t : Token} (h : forall before, (after before).run cs =
    ({ mode := .blank, reversed := t :: before.reverse } : Lexer)) : Firm cs [t] := by
  intro before rest
  have hafter : after (before ++ [t]) = { mode := .blank, reversed := t :: before.reverse } := by
    unfold after
    rw [List.reverse_concat]
  rw [Lexer.run_append, h before, hafter]

theorem firm_beginArray : Firm ['['] [.beginArray] :=
  firm_of_run fun _ => rfl

theorem firm_endArray : Firm [']'] [.endArray] :=
  firm_of_run fun _ => rfl

theorem firm_beginObject : Firm ['\x7b'] [.beginObject] :=
  firm_of_run fun _ => rfl

theorem firm_endObject : Firm ['\x7d'] [.endObject] :=
  firm_of_run fun _ => rfl

theorem firm_comma : Firm [','] [.comma] :=
  firm_of_run fun _ => rfl

theorem firm_colon : Firm [':'] [.colon] :=
  firm_of_run fun _ => rfl

theorem firm_null : Firm ['n', 'u', 'l', 'l'] [.null] :=
  firm_of_run fun _ => rfl

theorem firm_true : Firm ['t', 'r', 'u', 'e'] [.flag true] :=
  firm_of_run fun _ => rfl

theorem firm_false : Firm ['f', 'a', 'l', 's', 'e'] [.flag false] :=
  firm_of_run fun _ => rfl

/-!
# Strings
-/

/-- Inside a string of which these characters have been read, the last one first. -/
def inside (expect : Expect) (held : List Char) (before : List Token) : Lexer :=
  { mode := .string { reversed := held, sound := true, pending := none, expect }
    reversed := before.reverse }

variable {held : List Char} {before : List Token}

theorem hexValue?_hexDigit {d : Nat} (h : d < 16) :
    Escape.hexValue? (Text.Quoted.hexDigit d) = some d := by
  revert d
  decide

theorem step_digit {c : Char} {d : Nat} (hc : Escape.hexValue? c = some d) (left value : Nat) :
    (inside (.hex (left + 2) value) held before).step c =
      inside (.hex (left + 1) (16 * value + d)) held before := by
  have hmore : ¬ left + 2 ≤ 1 := by omega
  unfold inside Lexer.step Open.step
  simp only [hc, if_neg hmore]
  rfl

theorem step_lastDigit {c : Char} {d value : Nat} (hc : Escape.hexValue? c = some d)
    (hunit : 16 * value + d < 0xD800) :
    (inside (.hex 1 value) held before).step c =
      inside .plain (Char.ofNat (16 * value + d) :: held) before := by
  -- Below the surrogates a unit is a character of its own.
  have hhigh : ¬ (0xD800 ≤ 16 * value + d ∧ 16 * value + d < 0xDC00) := by omega
  have hlow : ¬ (0xDC00 ≤ 16 * value + d ∧ 16 * value + d < 0xE000) := by omega
  unfold inside Lexer.step Open.step
  simp only [hc, Nat.le_refl, if_true]
  unfold Open.pushUnit
  simp only [if_neg hhigh, if_neg hlow]

theorem run_unit {n : Nat} (hn : n < 0xD800) :
    (inside .plain held before).run (Escape.unit n) =
      inside .plain (Char.ofNat n :: held) before := by
  have hdigit : forall place, Escape.hexValue? (Escape.hexDigitOf n place) =
      some (n / Nat.pow 16 place % 16) :=
    fun place => hexValue?_hexDigit (Nat.mod_lt _ (by decide))
  have hvalue : 16 * (16 * (16 * (16 * 0 + n / Nat.pow 16 3 % 16) + n / Nat.pow 16 2 % 16) +
      n / Nat.pow 16 1 % 16) + n / Nat.pow 16 0 % 16 = n := by
    have hpowers : Nat.pow 16 3 = 4096 ∧ Nat.pow 16 2 = 256 ∧ Nat.pow 16 1 = 16 ∧
        Nat.pow 16 0 = 1 := by decide
    rw [hpowers.1, hpowers.2.1, hpowers.2.2.1, hpowers.2.2.2]
    omega
  have hopened : (inside .plain held before).run (Escape.unit n) =
      (inside (.hex 4 0) held before).run [Escape.hexDigitOf n 3, Escape.hexDigitOf n 2,
        Escape.hexDigitOf n 1, Escape.hexDigitOf n 0] := rfl
  rw [hopened, Lexer.run_cons, step_digit (hdigit 3), Lexer.run_cons, step_digit (hdigit 2),
    Lexer.run_cons, step_digit (hdigit 1), Lexer.run_cons, step_lastDigit (hdigit 0), hvalue]
  · rfl
  · rw [hvalue]
    exact hn

theorem step_plain {c : Char} (hletter : Escape.letter? c = none) (hc : ¬ c.toNat < 0x20) :
    (inside .plain held before).step c = inside .plain (c :: held) before := by
  have hquote : c ≠ '"' := by
    rintro rfl
    cases hletter
  have hbackslash : c ≠ '\\' := by
    rintro rfl
    cases hletter
  unfold inside Lexer.step Open.step
  simp only [if_neg hquote, if_neg hbackslash, if_neg hc]
  rfl

theorem run_encodeChar (c : Char) :
    (inside .plain held before).run (Escape.encodeChar c) =
      inside .plain (c :: held) before := by
  unfold Escape.encodeChar
  split
  next l hletter =>
    unfold Escape.letter? at hletter
    split at hletter
    all_goals cases hletter
    all_goals rfl
  next hletter =>
    split
    next hcontrol =>
      rw [run_unit (Nat.lt_trans hcontrol (by decide)), Char.ofNat_toNat]
    next hplain => exact step_plain hletter hplain

theorem run_encode (cs : List Char) :
    (inside .plain held before).run (Escape.encode cs) =
      inside .plain (cs.reverse ++ held) before := by
  induction cs generalizing held with
  | nil => rfl
  | cons c cs ih =>
      have hcons : Escape.encode (c :: cs) = Escape.encodeChar c ++ Escape.encode cs := rfl
      rw [hcons, Lexer.run_append, run_encodeChar, ih, List.reverse_cons, List.append_assoc]
      rfl

theorem firm_quoted (cs : List Char) :
    Firm (Escape.quoted cs) [.text (some (String.ofList cs))] := by
  apply firm_of_run
  intro before
  have hopened : (after before).run (Escape.quoted cs) =
      (inside .plain [] before).run (Escape.encode cs ++ ['"']) := rfl
  have hclosed : (inside .plain (cs.reverse ++ []) before).run ['"'] =
      { mode := .blank
        reversed := .text (some (String.ofList (cs.reverse ++ []).reverse)) ::
          before.reverse } := rfl
  rw [hopened, Lexer.run_append, run_encode, hclosed, List.append_nil, List.reverse_reverse]

end Token
end Json
end CodeSurvey
