import CodeSurvey.Proofs.Json.Spelling
import Mathlib.Data.List.TakeWhile

/-!
# Reading what is written: numbers

Whether a number is read as it was written is seen from its text alone, wherever the text
stands.  Integers of up to 64 bits are read as they were written.
-/

namespace CodeSurvey
namespace Json
namespace Token

open Lexer (after)

/-!
# Texts inside of texts
-/

namespace Lexer

/-- The same machine, which has read more before. -/
def shift (l : Lexer) (earlier : List Token) : Lexer :=
  { l with reversed := l.reversed ++ earlier }

theorem begin_shift (l : Lexer) (c : Char) (earlier : List Token) :
    (l.shift earlier).begin c = (l.begin c).shift earlier := by
  unfold begin
  split
  · rfl
  · split
    all_goals first | rfl | skip
    split
    · rfl
    · rfl

theorem step_shift (l : Lexer) (c : Char) (earlier : List Token) :
    (l.shift earlier).step c = (l.step c).shift earlier := by
  rcases l with ⟨mode, reversed⟩
  cases mode with
  | blank => exact begin_shift _ c earlier
  | string o =>
      unfold step
      simp only [shift]
      split
      · rfl
      · rfl
      · rfl
  | numeral cs read =>
      unfold step
      simp only [shift]
      split
      · rfl
      · split
        · rfl
        · let ended := emit ⟨.numeral cs read, reversed⟩ (numeralToken cs read)
          exact begin_shift ended c earlier
  | word left token =>
      unfold step
      simp only [shift]
      split
      · exact begin_shift (emit ⟨.word [] token, reversed⟩ token) c earlier
      · split
        · split
          · rfl
          · rfl
        · rfl

theorem run_shift (l : Lexer) (cs : List Char) (earlier : List Token) :
    (l.shift earlier).run cs = (l.run cs).shift earlier := by
  induction cs generalizing l with
  | nil => rfl
  | cons c cs ih => rw [run_cons, run_cons, step_shift, ih]

theorem run_after (before : List Token) (cs : List Char) :
    (after before).run cs = (start.run cs).shift before.reverse :=
  run_shift start cs before.reverse

theorem finish_run_numeral {ns : List Char} {read : Numeral} (hread : read.isComplete = true)
    (reversed : List Token) {rest : List Char} (hrest : Delimited rest) :
    (run ⟨.numeral ns read, reversed⟩ rest).finish =
      (run ⟨.blank, numeralToken ns read :: reversed⟩ rest).finish := by
  cases rest with
  | nil => rfl
  | cons c rest =>
      rcases hrest c rfl with ⟨hdigit, hpoint, he, hE⟩
      have hnext : read.next? c = none := by
        cases read with
        | zero => simp [Numeral.next?, Numeral.afterWhole?, hpoint, he, hE]
        | whole => simp [Numeral.next?, Numeral.afterWhole?, hdigit, hpoint, he, hE]
        | fraction => simp [Numeral.next?, hdigit, he, hE]
        | exponent => simp [Numeral.next?, hdigit]
        | _ => cases hread
      have hrefuses : refuses read c = false := by
        unfold refuses
        rw [hdigit, Bool.and_false]
      have hstep : step ⟨.numeral ns read, reversed⟩ c =
          step ⟨.blank, numeralToken ns read :: reversed⟩ c := by
        conv => lhs; unfold step
        simp only [hnext, hrefuses, Bool.false_eq_true, if_false]
        rfl
      rw [run_cons, run_cons, hstep]

end Lexer

variable {cs : List Char} {tokens : List Token}

theorem spells_of_ofText (h : ofText (String.ofList cs) = tokens)
    (hbad : tokens.getLast? ≠ some .bad) : Spells cs tokens := by
  intro before rest hrest
  unfold ofText at h
  rw [String.toList_ofList] at h
  rw [Lexer.run_append, Lexer.run_after]
  subst h
  rcases hrun : Lexer.start.run cs with ⟨mode, reversed⟩
  rw [hrun] at hbad
  have hjoined : forall last, after (before ++ (last ++ reversed).reverse) =
      ⟨.blank, last ++ (reversed ++ before.reverse)⟩ := by
    intro last
    unfold after
    rw [List.reverse_append, List.reverse_reverse, List.append_assoc]
  -- Between tokens nothing is left to do; a number goes on until something delimits it; in a
  -- string or a word the text would end with a fault.
  cases mode with
  | blank =>
      show _ = ((after (before ++ ([] ++ reversed).reverse)).run rest).finish
      rw [hjoined]
      rfl
  | numeral ns read =>
      cases hread : read.isComplete with
      | true =>
          show _ = ((after (before ++ ([Lexer.numeralToken ns read] ++ reversed).reverse)).run
            rest).finish
          rw [hjoined]
          exact Lexer.finish_run_numeral hread _ hrest
      | false =>
          have htoken : Lexer.numeralToken ns read = .bad := by
            unfold Lexer.numeralToken
            rw [hread]
            rfl
          have hlast : (Lexer.numeralToken ns read :: reversed).reverse.getLast? =
              some (Lexer.numeralToken ns read) := List.getLast?_reverse
          exact absurd (hlast.trans (congrArg some htoken)) hbad
  | string o => exact absurd (List.getLast?_reverse (l := Token.bad :: reversed)) hbad
  | word left token => exact absurd (List.getLast?_reverse (l := Token.bad :: reversed)) hbad

end Token

/-!
# Numbers that are read as they are written
-/

namespace Number

/-- The text of the number is read as this number again. -/
def Legible (n : Number) : Prop :=
  Token.ofText (String.ofList n.chars) = [.number (some n)]

theorem Legible.spells {n : Number} (h : n.Legible) :
    Token.Spells n.chars [.number (some n)] :=
  Token.spells_of_ofText h (by rintro ⟨⟩)

end Number

namespace Token

theorem step_start {d : Char} (hd : Text.Decimal.isDigit d = true) (hzero : d ≠ '0') :
    Lexer.start.step d = ⟨.numeral [d] .whole, []⟩ := by
  have hminus : d ≠ '-' := by
    rintro rfl
    cases hd
  have hstart : Numeral.start? d = some .whole := by
    unfold Numeral.start?
    rw [if_neg hminus, if_neg hzero, if_pos hd]
  show Lexer.start.begin d = _
  unfold Lexer.begin
  split
  next hblank =>
    unfold Lexer.isBlank at hblank
    simp only [Bool.or_eq_true, decide_eq_true_iff] at hblank
    rcases hblank with ((rfl | rfl) | rfl) | rfl
    all_goals cases hd
  next =>
    split
    all_goals first | cases hd | rw [hstart]
    rfl

theorem run_digits {ds : List Char} (h : forall d, d ∈ ds -> Text.Decimal.isDigit d = true)
    (ns : List Char) (reversed : List Token) :
    Lexer.run ⟨.numeral ns .whole, reversed⟩ ds =
      ⟨.numeral (ds.reverse ++ ns) .whole, reversed⟩ := by
  induction ds generalizing ns with
  | nil => rfl
  | cons d ds ih =>
      have hd := h d List.mem_cons_self
      have hstep : Lexer.step ⟨.numeral ns .whole, reversed⟩ d =
          ⟨.numeral (d :: ns) .whole, reversed⟩ := by
        unfold Lexer.step Numeral.next?
        simp only [hd, if_true]
      rw [Lexer.run_cons, hstep, ih fun d' hd' => h d' (List.mem_cons_of_mem _ hd'),
        List.reverse_cons, List.append_assoc]
      rfl

end Token

namespace Number

open Text.Decimal (digits isDigit digitValue)

theorem exists_digits_eq {n : Nat} (hn : 0 < n) :
    exists d ds, digits n = d :: ds ∧ d ≠ '0' := by
  fun_induction digits n with
  | case1 n hlt =>
      refine ⟨_, _, rfl, ?_⟩
      revert hn
      revert n
      decide
  | case2 n hle ih =>
      rcases ih (by omega) with ⟨d, ds, hdigits, hd⟩
      rw [hdigits]
      exact ⟨d, _, rfl, hd⟩

theorem le_foldl_digits (ds : List Char) (n : Nat) :
    n ≤ ds.foldl (fun n c => 10 * n + digitValue c) n := by
  induction ds generalizing n with
  | nil => exact Nat.le_refl n
  | cons d ds ih =>
      have hle := ih (10 * n + digitValue d)
      rw [List.foldl_cons]
      omega

theorem absorb_eq {ds : List Char} {n : Nat}
    (h : ds.foldl (fun n c => 10 * n + digitValue c) n < wordLimit) :
    absorb n ds = (ds.foldl (fun n c => 10 * n + digitValue c) n, []) := by
  induction ds generalizing n with
  | nil => rfl
  | cons d ds ih =>
      have hlt := Nat.lt_of_le_of_lt (le_foldl_digits ds (10 * n + digitValue d)) h
      unfold absorb
      rw [if_pos hlt]
      exact ih h

theorem absorb_digits {n : Nat} (hn : n < wordLimit) : absorb 0 (digits n) = (n, []) := by
  have hvalue : (digits n).foldl (fun n c => 10 * n + digitValue c) 0 = n :=
    Text.Decimal.value_digits n
  have hlt : (digits n).foldl (fun n c => 10 * n + digitValue c) 0 < wordLimit := by
    rw [hvalue]
    exact hn
  rw [absorb_eq hlt, hvalue]

theorem ofChars_digits (n : Nat) (negative : Bool) :
    Literal.ofChars (if negative then '-' :: digits n else digits n) =
      { negative, whole := digits n, fraction := [], exponent := none } := by
  have hall : forall d, d ∈ digits n -> isDigit d = true :=
    fun d => Text.Decimal.isDigit_of_mem_digits
  have htake : (digits n).takeWhile isDigit = digits n := List.takeWhile_eq_self_iff.mpr hall
  have hdrop : (digits n).dropWhile isDigit = [] := List.dropWhile_eq_nil_iff.mpr hall
  cases negative with
  | true =>
      show Literal.ofChars ('-' :: digits n) = _
      simp only [Literal.ofChars, htake, hdrop]
  | false =>
      have hminus : forall rest, digits n ≠ '-' :: rest := by
        intro rest heq
        have hd := hall '-' (heq ▸ List.mem_cons_self)
        cases hd
      show Literal.ofChars (digits n) = _
      unfold Literal.ofChars
      split
      next negative cs hcs =>
        split at hcs
        next rest heq => exact absurd heq (hminus rest)
        next =>
          cases hcs
          simp only [htake, hdrop]

theorem number?_natural {n : Nat} (hn : n < wordLimit) :
    (Literal.ofChars (digits n)).number? = some (.integer n) := by
  have hparts := ofChars_digits n false
  simp only [Bool.false_eq_true, if_false] at hparts
  rw [hparts]
  unfold Literal.number?
  simp only [absorb_digits hn]
  rfl

theorem number?_negative {n : Nat} (hpos : 0 < n) (hn : n ≤ Nat.pow 2 63) :
    (Literal.ofChars ('-' :: digits n)).number? = some (.integer (-(n : Int))) := by
  have hparts := ofChars_digits n true
  simp only [if_true] at hparts
  have hlimit : n < wordLimit := Nat.lt_of_le_of_lt hn (by decide)
  have hsmall : ¬ (n = 0 ∨ Nat.pow 2 63 < n) := by
    rintro (hzero | hlarge)
    · exact absurd hpos (hzero ▸ Nat.lt_irrefl 0)
    · exact absurd hn (Nat.not_le.mpr hlarge)
  rw [hparts]
  unfold Literal.number?
  simp only [absorb_digits hlimit, not_true_eq_false, if_false, if_neg hsmall]

theorem ofText_numeral {cs : List Char} {read : Token.Numeral}
    (hrun : Token.Lexer.start.run cs = ⟨.numeral cs.reverse read, []⟩)
    (hread : read.isComplete = true) :
    Token.ofText (String.ofList cs) = [.number (Literal.ofChars cs).number?] := by
  unfold Token.ofText
  rw [String.toList_ofList, hrun]
  show [Token.Lexer.numeralToken cs.reverse read] = _
  unfold Token.Lexer.numeralToken
  rw [if_pos hread, List.reverse_reverse]

theorem run_start_digits {n : Nat} (hn : 0 < n) :
    Token.Lexer.start.run (digits n) = ⟨.numeral (digits n).reverse .whole, []⟩ := by
  have hall : forall d, d ∈ digits n -> isDigit d = true :=
    fun d => Text.Decimal.isDigit_of_mem_digits
  rcases exists_digits_eq hn with ⟨d, ds, hdigits, hd⟩
  rw [hdigits] at hall ⊢
  rw [Token.Lexer.run_cons, Token.step_start (hall d List.mem_cons_self) hd,
    Token.run_digits fun d' hd' => hall d' (List.mem_cons_of_mem _ hd'), List.reverse_cons]

theorem run_start_minus {n : Nat} (hn : 0 < n) :
    Token.Lexer.start.run ('-' :: digits n) =
      ⟨.numeral ('-' :: digits n).reverse .whole, []⟩ := by
  have hall : forall d, d ∈ digits n -> isDigit d = true :=
    fun d => Text.Decimal.isDigit_of_mem_digits
  rcases exists_digits_eq hn with ⟨d, ds, hdigits, hzero⟩
  rw [hdigits] at hall ⊢
  have hd := hall d List.mem_cons_self
  have hstep : (Token.Lexer.start.step '-').step d = ⟨.numeral [d, '-'] .whole, []⟩ := by
    show Token.Lexer.step ⟨.numeral ['-'] .minus, []⟩ d = _
    unfold Token.Lexer.step Token.Numeral.next?
    simp only [hd, if_neg hzero, if_true]
  rw [Token.Lexer.run_cons, Token.Lexer.run_cons, hstep,
    Token.run_digits fun d' hd' => hall d' (List.mem_cons_of_mem _ hd'), List.reverse_cons,
    List.reverse_cons, List.append_assoc]
  rfl

/-- Integers of up to 64 bits are read as they are written. -/
theorem legible_integer {i : Int} (hlow : -(Nat.pow 2 63 : Int) ≤ i)
    (hhigh : i < (Nat.pow 2 64 : Nat)) : (Number.integer i).Legible := by
  unfold Legible chars Text.Decimal.signed
  simp only
  split
  next hneg =>
    have hpos : 0 < i.natAbs := by omega
    have hle : i.natAbs ≤ Nat.pow 2 63 := by omega
    have hvalue : -(i.natAbs : Int) = i := by omega
    rw [ofText_numeral (run_start_minus hpos) rfl, number?_negative hpos hle, hvalue]
  next hnonneg =>
    cases Nat.eq_zero_or_pos i.natAbs with
    | inl hzero =>
        have hdigits : digits 0 = ['0'] := by
          rw [digits]
          rfl
        have hrun : Token.Lexer.start.run (digits 0) =
            ⟨.numeral (digits 0).reverse .zero, []⟩ := by
          rw [hdigits]
          rfl
        rw [hzero, ofText_numeral hrun rfl, number?_natural (by decide),
          Int.natAbs_eq_zero.mp hzero]
        rfl
    | inr hpos =>
        have hlt : i.natAbs < wordLimit := by
          show i.natAbs < Nat.pow 2 64
          omega
        have hvalue : (i.natAbs : Int) = i := by omega
        rw [ofText_numeral (run_start_digits hpos) rfl, number?_natural hlt, hvalue]

end Number
end Json
end CodeSurvey
