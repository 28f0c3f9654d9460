import CodeSurvey.Json.Number
import CodeSurvey.Proofs.Number.Search
import Mathlib.Data.List.Induction

/-!
# The text of a floating-point number

The text of a number stands for a decimal that rounds to it, so that no two numbers have
the same text.
-/

namespace CodeSurvey

namespace Text
namespace Decimal

theorem value_append (cs ds : List Char) :
    value (cs ++ ds) = value cs * 10 ^ ds.length + value ds := by
  induction ds using List.reverseRecOn with
  | nil => simp [value]
  | append_singleton ds d ih =>
      rw [← List.append_assoc, value_append_singleton, value_append_singleton, ih,
        List.length_append, List.length_singleton, Nat.pow_succ]
      ring

theorem value_zeros (n : Nat) : value (List.replicate n '0') = 0 := by
  induction n with
  | zero => rfl
  | succ n ih =>
      rw [List.replicate_succ', value_append_singleton, ih]
      rfl

end Decimal
end Text

namespace Json
namespace Number
namespace Literal

open Text.Decimal (isDigit value)

def power (l : Literal) : Int :=
  match l.exponent with
  | none => 0
  | some (minus, ds) => if minus then -(value ds : Int) else value ds

def magnitude (l : Literal) : Rat :=
  value (l.whole ++ l.fraction) * 10 ^ (l.power - l.fraction.length)

def AllDigits (cs : List Char) : Prop :=
  forall c, c ∈ cs -> isDigit c = true

/-- Nothing with which a run of digits could go on. -/
def Breaks (cs : List Char) : Prop :=
  forall c, cs.head? = some c -> isDigit c = false

theorem takeWhile_append {cs rest : List Char} (h : AllDigits cs) (hrest : Breaks rest) :
    (cs ++ rest).takeWhile isDigit = cs ∧ (cs ++ rest).dropWhile isDigit = rest := by
  have hnone : rest.takeWhile isDigit = [] ∧ rest.dropWhile isDigit = rest := by
    cases rest with
    | nil => exact ⟨rfl, rfl⟩
    | cons c rest =>
        have hc := hrest c rfl
        rw [List.takeWhile_cons, List.dropWhile_cons, hc]
        exact ⟨rfl, rfl⟩
  rw [List.takeWhile_append_of_pos h, List.dropWhile_append_of_pos h, hnone.1, hnone.2,
    List.append_nil]
  exact ⟨rfl, rfl⟩

def fractionChars (fraction : List Char) : List Char :=
  if fraction = [] then [] else '.' :: fraction

def exponentChars : Option (Bool × List Char) -> List Char
  | none => []
  | some (minus, ds) => 'e' :: (if minus then '-' else '+') :: ds

def chars (l : Literal) : List Char :=
  let unsigned := l.whole ++ (fractionChars l.fraction ++ exponentChars l.exponent)
  if l.negative then '-' :: unsigned else unsigned

/-- There are digits where digits belong, and at least one in front of the point. -/
structure Proper (l : Literal) : Prop where
  nonempty : l.whole ≠ []
  whole : AllDigits l.whole
  fraction : AllDigits l.fraction
  exponent : forall e, l.exponent = some e -> AllDigits e.2

theorem breaks_exponentChars (exponent : Option (Bool × List Char)) :
    Breaks (exponentChars exponent) := by
  intro c hc
  cases exponent with
  | none => cases hc
  | some e =>
      cases hc
      rfl

theorem breaks_tail (fraction : List Char) (exponent : Option (Bool × List Char)) :
    Breaks (fractionChars fraction ++ exponentChars exponent) := by
  intro c hc
  unfold fractionChars at hc
  split at hc
  · exact breaks_exponentChars exponent c hc
  · cases hc
    rfl

/-- The fraction and the exponent, read behind the digits in front of the point. -/
def ofTail (cs : List Char) : List Char × Option (Bool × List Char) :=
  let (fraction, rest) :=
    match cs with
    | '.' :: rest => (rest.takeWhile isDigit, rest.dropWhile isDigit)
    | _ => ([], cs)
  let exponent :=
    match rest with
    | _ :: '-' :: ds => some (true, ds)
    | _ :: '+' :: ds => some (false, ds)
    | _ :: ds => some (false, ds)
    | [] => none
  (fraction, exponent)

theorem ofTail_eq {fraction : List Char} (h : AllDigits fraction)
    (exponent : Option (Bool × List Char)) :
    ofTail (fractionChars fraction ++ exponentChars exponent) = (fraction, exponent) := by
  have hsplit := takeWhile_append h (breaks_exponentChars exponent)
  cases fraction with
  | nil => rcases exponent with _ | ⟨_ | _, ds⟩ <;> rfl
  | cons d ds =>
      have hpoint : fractionChars (d :: ds) ++ exponentChars exponent =
          '.' :: (d :: ds ++ exponentChars exponent) := rfl
      rw [hpoint]
      unfold ofTail
      simp only [hsplit.1, hsplit.2]
      rcases exponent with _ | ⟨_ | _, ds⟩ <;> rfl

theorem ofChars_unsigned {cs : List Char} (h : forall rest, cs ≠ '-' :: rest) :
    ofChars cs =
      { negative := false
        whole := cs.takeWhile isDigit
        fraction := (ofTail (cs.dropWhile isDigit)).1
        exponent := (ofTail (cs.dropWhile isDigit)).2 } := by
  unfold ofChars
  split
  next negative cs' hsign =>
    split at hsign
    next rest => exact absurd rfl (h rest)
    next =>
      cases hsign
      rfl

theorem ofChars_minus (cs : List Char) :
    ofChars ('-' :: cs) =
      { negative := true
        whole := cs.takeWhile isDigit
        fraction := (ofTail (cs.dropWhile isDigit)).1
        exponent := (ofTail (cs.dropWhile isDigit)).2 } :=
  rfl

/-- A literal is read as it was written. -/
theorem Proper.ofChars_chars {l : Literal} (h : l.Proper) : ofChars l.chars = l := by
  rcases l with ⟨negative, whole, fraction, exponent⟩
  rcases h with ⟨hne, hwhole, hfraction, _⟩
  simp only at hne hwhole hfraction
  have hsplit := takeWhile_append hwhole (breaks_tail fraction exponent)
  have htail := ofTail_eq hfraction exponent
  cases negative with
  | true =>
      show ofChars ('-' :: (whole ++ (fractionChars fraction ++ exponentChars exponent))) = _
      rw [ofChars_minus, hsplit.1, hsplit.2, htail]
  | false =>
      have hunsigned : forall rest,
          whole ++ (fractionChars fraction ++ exponentChars exponent) ≠ '-' :: rest := by
        intro rest heq
        cases whole with
        | nil => exact hne rfl
        | cons c whole =>
            cases heq
            exact nomatch hwhole '-' List.mem_cons_self
      show ofChars (whole ++ (fractionChars fraction ++ exponentChars exponent)) = _
      rw [ofChars_unsigned hunsigned, hsplit.1, hsplit.2, htail]

end Literal
end Number
end Json

namespace Number
namespace Shortest

open Json.Number (Literal)
open Json.Number.Literal (AllDigits)
open Text.Decimal (digits value)

/-!
# Layouts
-/

theorem allDigits_digits (n : Nat) : AllDigits (digits n) :=
  fun _ => Text.Decimal.isDigit_of_mem_digits

theorem allDigits_zeros (n : Nat) : AllDigits (List.replicate n '0') :=
  fun _ hc => List.eq_of_mem_replicate hc ▸ rfl

theorem AllDigits.append {cs ds : List Char} (h : AllDigits cs) (h' : AllDigits ds) :
    AllDigits (cs ++ ds) := by
  intro c hc
  cases List.mem_append.mp hc with
  | inl hc => exact h c hc
  | inr hc => exact h' c hc

/-- The characters are those of a literal for the decimal, which is not an integer. -/
def Denotes (cs : List Char) (r : Rat) : Prop :=
  exists l : Literal, l.Proper ∧ l.negative = false ∧ l.chars = cs ∧ l.magnitude = r ∧
    (l.fraction ≠ [] ∨ l.exponent ≠ none)

theorem magnitude_eq {l : Literal} {d : Decimal}
    (hvalue : value (l.whole ++ l.fraction) = d.digits)
    (hpower : l.power - l.fraction.length = d.exponent) : l.magnitude = d.toRat := by
  unfold Literal.magnitude Decimal.toRat
  rw [hvalue, hpower]

theorem denotes_whole {d : Decimal} (hexponent : 0 ≤ d.exponent) :
    Denotes (digits d.digits ++ List.replicate d.exponent.toNat '0' ++ ['.', '0']) d.toRat := by
  let whole := digits d.digits ++ List.replicate d.exponent.toNat '0'
  refine ⟨⟨false, whole, ['0'], none⟩, ?_, rfl, rfl, ?_, Or.inl (List.cons_ne_nil _ _)⟩
  · constructor
    case nonempty => simp [whole, Text.Decimal.digits_ne_nil]
    case whole => exact AllDigits.append (allDigits_digits _) (allDigits_zeros _)
    case fraction => exact allDigits_zeros 1
    case exponent => exact fun _ he => nomatch he
  · have hvalue : value (whole ++ ['0']) = d.digits * 10 ^ d.exponent.toNat * 10 := by
      have hwhole : value whole = d.digits * 10 ^ d.exponent.toNat := by
        rw [Text.Decimal.value_append, Text.Decimal.value_digits, Text.Decimal.value_zeros,
          List.length_replicate, Nat.add_zero]
      rw [Text.Decimal.value_append, hwhole]
      rfl
    have hpower : (10 : Rat) ^ d.exponent = 10 ^ d.exponent.toNat := by
      rw [← zpow_natCast, Int.toNat_of_nonneg hexponent]
    unfold Literal.magnitude Decimal.toRat
    simp only
    rw [hvalue, hpower]
    show ((d.digits * 10 ^ d.exponent.toNat * 10 : Nat) : Rat) * 10 ^ (-1 : Int) = _
    push_cast
    rw [zpow_neg_one, mul_assoc, mul_inv_cancel₀ (by norm_num), mul_one]

theorem denotes_point {d : Decimal} (hexponent : d.exponent < 0)
    (hpoint : 0 < (digits d.digits).length + d.exponent) :
    let point := (digits d.digits).length + d.exponent
    Denotes ((digits d.digits).take point.toNat ++ '.' :: (digits d.digits).drop point.toNat)
      d.toRat := by
  intro point
  have hlength : ((digits d.digits).drop point.toNat).length = (-d.exponent).toNat := by
    rw [List.length_drop]
    omega
  have hfraction : (digits d.digits).drop point.toNat ≠ [] := by
    intro hnil
    rw [hnil] at hlength
    have hzero : 0 = (-d.exponent).toNat := hlength
    omega
  refine ⟨⟨false, (digits d.digits).take point.toNat, (digits d.digits).drop point.toNat, none⟩,
    ?_, rfl, ?_, ?_, Or.inl hfraction⟩
  · constructor
    case nonempty =>
      intro hnil
      have hzero := congrArg List.length hnil
      rw [List.length_take, List.length_nil] at hzero
      omega
    case whole => exact fun c hc => allDigits_digits _ c (List.mem_of_mem_take hc)
    case fraction => exact fun c hc => allDigits_digits _ c (List.mem_of_mem_drop hc)
    case exponent => exact fun _ he => nomatch he
  · show _ ++ (Literal.fractionChars _ ++ []) = _
    unfold Literal.fractionChars
    rw [if_neg hfraction, List.append_nil]
  · apply magnitude_eq
    · show value (_ ++ _) = _
      rw [List.take_append_drop, Text.Decimal.value_digits]
    · show (0 : Int) - ((digits d.digits).drop point.toNat).length = d.exponent
      rw [hlength]
      omega

theorem denotes_zeros {d : Decimal} (hpoint : (digits d.digits).length + d.exponent ≤ 0) :
    let point := (digits d.digits).length + d.exponent
    Denotes (['0', '.'] ++ List.replicate (-point).toNat '0' ++ digits d.digits) d.toRat := by
  intro point
  let fraction := List.replicate (-point).toNat '0' ++ digits d.digits
  have hfraction : fraction ≠ [] := by simp [fraction, Text.Decimal.digits_ne_nil]
  refine ⟨⟨false, ['0'], fraction, none⟩, ?_, rfl, ?_, ?_, Or.inl hfraction⟩
  · constructor
    case nonempty => exact List.cons_ne_nil _ _
    case whole => exact allDigits_zeros 1
    case fraction => exact AllDigits.append (allDigits_zeros _) (allDigits_digits _)
    case exponent => exact fun _ he => nomatch he
  · show '0' :: (Literal.fractionChars fraction ++ []) = _
    unfold Literal.fractionChars
    rw [if_neg hfraction, List.append_nil]
    rfl
  · apply magnitude_eq
    · show value (['0'] ++ (List.replicate (-point).toNat '0' ++ digits d.digits)) = _
      have hzeros : value (['0'] ++ List.replicate (-point).toNat '0') = 0 := by
        show value (List.replicate 1 '0' ++ List.replicate (-point).toNat '0') = 0
        rw [List.replicate_append_replicate, Text.Decimal.value_zeros]
      rw [← List.append_assoc, Text.Decimal.value_append, hzeros, Text.Decimal.value_digits]
      omega
    · show (0 : Int) - (List.replicate (-point).toNat '0' ++ digits d.digits).length = _
      rw [List.length_append, List.length_replicate]
      omega

theorem power_exponentPart (n : Int) (negative : Bool) (whole fraction : List Char) :
    Literal.exponentChars (some (decide (n < 0), digits n.natAbs)) = exponentPart n ∧
      Literal.power ⟨negative, whole, fraction, some (decide (n < 0), digits n.natAbs)⟩ = n := by
  constructor
  · unfold Literal.exponentChars exponentPart
    simp only [decide_eq_true_eq]
    rfl
  · unfold Literal.power
    simp only [decide_eq_true_eq, Text.Decimal.value_digits]
    split <;> omega

theorem denotes_exponent (d : Decimal) :
    let exponent := exponentPart ((digits d.digits).length + d.exponent - 1)
    Denotes
      (match digits d.digits with
        | [only] => only :: exponent
        | first :: rest => first :: '.' :: rest ++ exponent
        | [] => exponent) d.toRat := by
  intro exponent
  let n := (digits d.digits).length + d.exponent - 1
  have hall := allDigits_digits d.digits
  have hvalue := Text.Decimal.value_digits d.digits
  cases hdigits : digits d.digits with
  | nil => exact absurd hdigits (Text.Decimal.digits_ne_nil _)
  | cons first rest =>
      rw [hdigits] at hall hvalue
      have hlength : (digits d.digits).length = rest.length + 1 := congrArg List.length hdigits
      have hpower := power_exponentPart n false [first] rest
      refine ⟨⟨false, [first], rest, some (decide (n < 0), digits n.natAbs)⟩, ?_, rfl, ?_, ?_,
        Or.inr (Option.some_ne_none _)⟩
      · constructor
        case nonempty => exact List.cons_ne_nil _ _
        case whole => exact fun c hc => hall c (List.mem_singleton.mp hc ▸ List.mem_cons_self)
        case fraction => exact fun c hc => hall c (List.mem_cons_of_mem _ hc)
        case exponent =>
          intro e he
          cases he
          exact allDigits_digits _
      · show first :: (Literal.fractionChars rest ++ Literal.exponentChars _) = _
        rw [hpower.1]
        cases rest with
        | nil => rfl
        | cons second rest => rfl
      · apply magnitude_eq
        · exact hvalue
        · rw [hpower.2]
          show n - (rest.length : Int) = d.exponent
          omega

theorem denotes_layout (d : Decimal) : Denotes (layout d) d.toRat := by
  unfold layout
  simp only
  split
  next h => exact denotes_whole h.1
  next hnot =>
    split
    next h => exact denotes_point (by omega) h.1
    next =>
      split
      next h => exact denotes_zeros h.2
      next => exact denotes_exponent d

/-!
# Different numbers have different texts
-/

theorem inRange_ofBits {bits : Nat} (hbits : bits < Nat.pow 2 63)
    (hpos : 0 < (Binary.ofBits bits).mantissa) : (Binary.ofBits bits).InRange where
  pos := hpos
  mantissa := Binary.mantissa_ofBits_lt bits
  narrow := by
    intro hnarrow
    unfold Binary.ofBits Binary.ofFields at hnarrow ⊢
    split at hnarrow
    next => cases hnarrow
    next hfield =>
      rw [if_neg hfield]
      rcases Bool.and_eq_true_iff.mp hnarrow with ⟨hfraction, _⟩
      rw [of_decide_eq_true hfraction]
  low := by
    unfold Binary.ofBits Binary.ofFields
    split
    next => exact Int.le_refl _
    next hfield =>
      have hpositive : (1 : Int) ≤ (bits / Nat.pow 2 52 : Nat) :=
        Int.ofNat_le.mpr (Nat.pos_of_ne_zero hfield)
      exact Int.sub_le_sub_right hpositive 1075
  high := by
    have hfield : bits / Nat.pow 2 52 < 2048 := Nat.div_lt_of_lt_mul hbits
    unfold Binary.ofBits Binary.ofFields
    split
    next => exact (by decide : (-1074 : Int) ≤ 972)
    next =>
      exact Int.sub_le_sub_right (Int.ofNat_le.mpr (Nat.le_of_lt_succ hfield)) 1075

theorem layout_zero : layout ⟨0, 0⟩ = ['0', '.', '0'] := by
  have hdigits : digits 0 = ['0'] := by
    unfold digits
    rfl
  unfold layout
  simp only [hdigits]
  rfl

/-- The text of a magnitude stands for zero, or for a decimal that rounds to it. -/
def Stands (x : Binary) (r : Rat) : Prop :=
  x.mantissa = 0 ∧ r = 0 ∨ 0 < x.mantissa ∧ x.Rounds r

theorem lower_pos {x : Binary} (h : 0 < x.mantissa) : 0 < x.lower := by
  have hmantissa : (1 : Rat) ≤ x.mantissa := Nat.one_le_cast.mpr h
  have hpow : (0 : Rat) < 2 ^ x.exponent := by positivity
  unfold Binary.lower
  apply mul_pos _ hpow
  split <;> linarith

theorem eq_zero_of_mantissa {bits : Nat} (h : (Binary.ofBits bits).mantissa = 0) : bits = 0 := by
  unfold Binary.ofBits Binary.ofFields at h
  split at h
  next hfield =>
    have hfraction : bits % Nat.pow 2 52 = 0 := h
    rw [← Nat.div_add_mod bits (Nat.pow 2 52), hfield, hfraction]
  next =>
    have hsum : Nat.pow 2 52 + bits % Nat.pow 2 52 = 0 := h
    exact absurd (Nat.eq_zero_of_add_eq_zero_right hsum) (by decide)

theorem Stands.eq {m n : Nat} {r : Rat} (hm : Stands (Binary.ofBits m) r)
    (hn : Stands (Binary.ofBits n) r) : m = n := by
  rcases hm with ⟨hm, hr⟩ | ⟨hm, hr⟩
  · rcases hn with ⟨hn, _⟩ | ⟨hn, hr'⟩
    · rw [eq_zero_of_mantissa hm, eq_zero_of_mantissa hn]
    · exact absurd (hr'.lower_le.trans hr.le) (not_le.mpr (lower_pos hn))
  · rcases hn with ⟨hn, hr'⟩ | ⟨hn, hr'⟩
    · exact absurd (hr.lower_le.trans hr'.le) (not_le.mpr (lower_pos hm))
    · exact hr.eq hr'

theorem exists_literal_chars (x : Float) :
    exists l : Literal, l.Proper ∧ l.chars = chars x ∧ l.negative = isNegative x ∧
      Stands (Binary.ofFloat x) l.magnitude ∧ (l.fraction ≠ [] ∨ l.exponent ≠ none) := by
  have hbody : exists r, Denotes (if (Binary.ofFloat x).mantissa = 0 then ['0', '.', '0']
      else layout (select (Binary.ofFloat x))) r ∧ Stands (Binary.ofFloat x) r := by
    split
    next hzero =>
      have hdenotes := denotes_layout ⟨0, 0⟩
      rw [layout_zero] at hdenotes
      exact ⟨_, hdenotes, Or.inl ⟨hzero, by simp [Decimal.toRat]⟩⟩
    next hne =>
      have hpos := Nat.pos_of_ne_zero hne
      have hrange := inRange_ofBits (Nat.mod_lt x.toBits.toNat (by decide)) hpos
      exact ⟨_, denotes_layout _, Or.inr ⟨hpos, rounds_select hrange⟩⟩
  rcases hbody with ⟨r, ⟨l, hproper, hsign, hchars, hmagnitude, hfloat⟩, hstands⟩
  refine ⟨{ l with negative := isNegative x },
    ⟨hproper.1, hproper.2, hproper.3, hproper.4⟩, ?_, rfl, ?_, hfloat⟩
  · rw [Literal.chars, hsign] at hchars
    unfold chars
    simp only
    rw [← hchars]
    rfl
  · exact hmagnitude ▸ hstands

theorem chars_injective : Function.Injective chars := by
  intro x y hchars
  rcases exists_literal_chars x with ⟨l, hl, hlx, hsign, hstands, _⟩
  rcases exists_literal_chars y with ⟨l', hl', hly, hsign', hstands', _⟩
  have hsame : l = l' := by
    rw [← hl.ofChars_chars, ← hl'.ofChars_chars, hlx, hly, hchars]
  subst hsame
  rw [Binary.ofFloat_eq] at hstands hstands'
  have hmod : x.toBits.toNat % Nat.pow 2 63 = y.toBits.toNat % Nat.pow 2 63 :=
    Stands.eq hstands hstands'
  have hnegative : isNegative x = isNegative y := hsign.symm.trans hsign'
  have htop : (Nat.pow 2 63 ≤ x.toBits.toNat ↔ Nat.pow 2 63 ≤ y.toBits.toNat) :=
    decide_eq_decide.mp hnegative
  have hx := UInt64.toNat_lt x.toBits
  have hy := UInt64.toNat_lt y.toBits
  simp only [Nat.pow_eq, Nat.reducePow] at htop hx hy hmod
  have hwords : x.toBits = y.toBits := UInt64.toNat_inj.mp (by omega)
  rcases x with ⟨⟨word⟩⟩
  rcases y with ⟨⟨word'⟩⟩
  have hword : word = word' := hwords
  subst hword
  rfl

end Shortest
end Number
end CodeSurvey
