/-!
# Decimal numerals

Numbers are written with the digits of base ten, most significant first and
without leading zeros, and read back digit by digit.  Every number that this
library prints goes through `digits`, so a statement about the text of a count,
a time stamp or a JSON integer is a statement about `digits`.
-/

namespace CodeSurvey
namespace Text
namespace Decimal

def digit (d : Nat) : Char :=
  Char.ofNat ('0'.toNat + d)

def isDigit (c : Char) : Bool :=
  '0' ≤ c && c ≤ '9'

def digitValue (c : Char) : Nat :=
  c.toNat - '0'.toNat

/-- The digits of `n`, most significant first; zero is written `0`. -/
def digits (n : Nat) : List Char :=
  if n < 10 then [digit n] else digits (n / 10) ++ [digit (n % 10)]
termination_by n
decreasing_by omega

def value (cs : List Char) : Nat :=
  cs.foldl (fun n c => 10 * n + digitValue c) 0

/-- The digits of `n`, filled up with zeros on the left to at least `width`. -/
def padded (width n : Nat) : List Char :=
  let ds := digits n
  List.replicate (width - ds.length) '0' ++ ds

def signed (i : Int) : List Char :=
  if i < 0 then '-' :: digits i.natAbs else digits i.natAbs

def natText (n : Nat) : String :=
  String.ofList (digits n)

def intText (i : Int) : String :=
  String.ofList (signed i)

/-!
# Laws of the digits

Reading what was written gives the number back, and only digits are written.
-/

theorem digitValue_digit {d : Nat} (h : d < 10) : digitValue (digit d) = d := by
  match d, h with
  | 0, _ | 1, _ | 2, _ | 3, _ | 4, _ | 5, _ | 6, _ | 7, _ | 8, _ | 9, _ => decide

theorem isDigit_digit {d : Nat} (h : d < 10) : isDigit (digit d) = true := by
  match d, h with
  | 0, _ | 1, _ | 2, _ | 3, _ | 4, _ | 5, _ | 6, _ | 7, _ | 8, _ | 9, _ => decide

theorem value_append_singleton (cs : List Char) (c : Char) :
    value (cs ++ [c]) = 10 * value cs + digitValue c := by
  simp [value]

theorem value_digits (n : Nat) : value (digits n) = n := by
  fun_induction digits n with
  | case1 n h =>
      simp [value, digitValue_digit h]
  | case2 n h ih =>
      have hd : n % 10 < 10 := Nat.mod_lt n (by decide)
      rw [value_append_singleton, ih, digitValue_digit hd]
      omega

theorem eq_of_natText_eq {m n : Nat} (h : natText m = natText n) : m = n := by
  have hdigits : digits m = digits n := String.ofList_injective h
  rw [← value_digits m, hdigits, value_digits]

theorem isDigit_of_mem_digits {n : Nat} {c : Char} (h : c ∈ digits n) :
    isDigit c = true := by
  fun_induction digits n with
  | case1 n hn =>
      rw [List.mem_singleton] at h
      rw [h]
      exact isDigit_digit hn
  | case2 n hn ih =>
      rcases List.mem_append.mp h with h | h
      · exact ih h
      · rw [List.mem_singleton] at h
        rw [h]
        exact isDigit_digit (Nat.mod_lt n (by decide))

theorem digits_ne_nil (n : Nat) : digits n ≠ [] := by
  fun_cases digits n <;> simp

end Decimal
end Text
end CodeSurvey
