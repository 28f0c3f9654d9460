import CodeSurvey.Proofs.Number.Interval

/-!
# The search for the shortest decimal

Whatever decimal the search comes up with, it rounds to the number that it was sought for.
With 17 digits the decimals are closer together than the floating-point numbers, so the
search does not come up with nothing.
-/

namespace CodeSurvey
namespace Number

/-- A positive number in the range of the floating-point numbers. -/
structure Binary.InRange (x : Binary) : Prop where
  pos : 0 < x.mantissa
  mantissa : x.mantissa < Nat.pow 2 53
  narrow : x.narrowBelow = true -> x.mantissa = Nat.pow 2 52
  low : -1074 ≤ x.exponent
  high : x.exponent ≤ 972

namespace Binary

theorem numerator_eq (x : Binary) : (x.numerator : Rat) = x.toRat * x.denominator := by
  have htwo := Shortest.zpow_toNat 2 (by norm_num) x.exponent
  unfold numerator denominator toRat
  push_cast [Nat.pow_eq]
  rw [← htwo]
  ring

end Binary

namespace Shortest

variable {x : Binary}

/-!
# Rounding down
-/

theorem gridFloor_spec (x : Binary) (unit : Int) :
    gridFloor x unit * 10 ^ unit ≤ x.toRat ∧ x.toRat < (gridFloor x unit + 1) * 10 ^ unit := by
  have hten := zpow_toNat 10 (by norm_num) unit
  have hdenominator : 0 < x.denominator := Nat.pow_pos (by decide)
  -- Numerator and denominator of the quotient, both multiplied by `k`.
  let k : Rat := x.denominator * 10 ^ (-unit).toNat
  have hk : 0 < k := mul_pos (Nat.cast_pos.mpr hdenominator) (by positivity)
  let num := x.numerator * Nat.pow 10 (-unit).toNat
  let den := x.denominator * Nat.pow 10 unit.toNat
  have hnum : (num : Rat) = x.toRat * k := by
    show ((x.numerator * Nat.pow 10 (-unit).toNat : Nat) : Rat) = _
    push_cast [Nat.pow_eq, Binary.numerator_eq]
    ring
  have hden : (den : Rat) = 10 ^ unit * k := by
    show ((x.denominator * Nat.pow 10 unit.toNat : Nat) : Rat) = _
    push_cast [Nat.pow_eq]
    rw [← hten]
    ring
  have hpos : 0 < den := Nat.mul_pos hdenominator (Nat.pow_pos (by decide))
  have hle : ((num / den * den : Nat) : Rat) ≤ num := Nat.cast_le.mpr (Nat.div_mul_le_self _ _)
  have hlt : (num : Rat) < ((num / den + 1) * den : Nat) := by
    rw [Nat.cast_lt, Nat.mul_comm]
    exact Nat.lt_mul_div_succ num hpos
  push_cast at hle hlt
  rw [hnum, hden] at hle hlt
  constructor
  · apply le_of_mul_le_mul_right _ hk
    rw [mul_assoc]
    exact hle
  · apply lt_of_mul_lt_mul_right _ hk.le
    rw [mul_assoc]
    exact hlt

/-!
# Decimals of one length
-/

theorem rounds_of_onGrid? (hx : 0 < x.mantissa) {unit : Int} {d : Decimal}
    (h : onGrid? x unit = some d) : x.Rounds d.toRat := by
  apply (readsBack_iff hx).mp
  unfold onGrid? at h
  simp only at h
  split at h
  next => cases h
  next hbelow _ =>
    cases h
    exact hbelow
  next _ habove =>
    cases h
    exact habove
  next hbelow habove =>
    split at h
    · cases h
      exact hbelow
    · cases h
      exact habove
    · cases h
      split
      · exact hbelow
      · exact habove

/-- What is half a unit of the last place away is near enough, where the decimals are that
close together. -/
theorem rounds_of_near (hx : x.InRange) {step r : Rat} (hstep : 0 < step)
    (hunit : step * 10 ^ 16 ≤ x.toRat) (hbelow : x.toRat - step / 2 ≤ r)
    (habove : r ≤ x.toRat + step / 2) : x.Rounds r := by
  have hpow : (0 : Rat) < 2 ^ x.exponent := by positivity
  unfold Binary.toRat at hunit hbelow habove
  -- The next numbers are further away than `2 ^ 53 / 10 ^ 16` of their distance.
  have hwide : step < 2 ^ x.exponent := by
    have hmantissa : (x.mantissa : Rat) ≤ 2 ^ 53 := by exact_mod_cast hx.mantissa.le
    have hproduct := mul_le_mul_of_nonneg_right hmantissa hpow.le
    linarith
  have hupper : x.mantissa * 2 ^ x.exponent + step / 2 < x.upper := by
    unfold Binary.upper
    rw [add_mul]
    linarith
  have hlower : x.lower < x.mantissa * 2 ^ x.exponent - step / 2 := by
    unfold Binary.lower
    split
    next hnarrow =>
      have hmantissa : (x.mantissa : Rat) = 2 ^ 52 := by exact_mod_cast hx.narrow hnarrow
      rw [hmantissa] at hunit ⊢
      linarith
    next =>
      rw [sub_mul]
      linarith
  exact ⟨Or.inl (hlower.trans_le hbelow), Or.inl (habove.trans_lt hupper)⟩

/-- One of the two neighbours is near enough. -/
theorem onGrid?_ne_none (hx : x.InRange) {unit : Int}
    (hunit : (10 : Rat) ^ unit * 10 ^ 16 ≤ x.toRat) : onGrid? x unit ≠ none := by
  rcases gridFloor_spec x unit with ⟨hbelow, habove⟩
  have hnear : x.Rounds (Decimal.toRat ⟨gridFloor x unit, unit⟩) ∨
      x.Rounds (Decimal.toRat ⟨gridFloor x unit + 1, unit⟩) := by
    have hstep : (0 : Rat) < 10 ^ unit := by positivity
    unfold Decimal.toRat
    push_cast
    rw [add_mul, one_mul] at habove ⊢
    rcases le_total (x.toRat - gridFloor x unit * 10 ^ unit) (10 ^ unit / 2) with hhalf | hhalf
    · exact Or.inl (rounds_of_near hx hstep hunit (by linarith) (by linarith))
    · exact Or.inr (rounds_of_near hx hstep hunit (by linarith) (by linarith))
  unfold onGrid?
  simp only
  split
  next hnone hnone' =>
    cases hnear with
    | inl h => exact absurd ((readsBack_iff hx.pos).mpr h) (Bool.eq_false_iff.mp hnone)
    | inr h => exact absurd ((readsBack_iff hx.pos).mpr h) (Bool.eq_false_iff.mp hnone')
  next => exact Option.some_ne_none _
  next => exact Option.some_ne_none _
  next => split <;> exact Option.some_ne_none _

/-!
# The size of a number
-/

theorem pow_estimate_le :
    (forall n, n < 1100 -> Nat.pow 10 (n * 30103 / 100000) ≤ 100 * Nat.pow 2 n) ∧
      forall n, n < 1100 -> Nat.pow 2 n ≤ 100 * Nat.pow 10 ((n * 30103 + 99999) / 100000) := by
  decide +kernel

theorem zpow_estimate_le {size : Int} (hlow : -1100 < size) (hhigh : size < 1100) :
    (10 : Rat) ^ (size * 30103 / 100000 - 2) ≤ 2 ^ size := by
  rcases size.eq_nat_or_neg with ⟨n, rfl | rfl⟩
  · have hestimate := pow_estimate_le.1 n (by omega)
    have hcast : (10 : Rat) ^ (n * 30103 / 100000) ≤ 100 * 2 ^ n := by
      exact_mod_cast hestimate
    have hexponent : (n : Int) * 30103 / 100000 = ((n * 30103 / 100000 : Nat) : Int) := by
      omega
    rw [hexponent, zpow_sub₀ (by norm_num), zpow_natCast, zpow_natCast,
      div_le_iff₀ (by norm_num)]
    linarith
  · have hestimate := pow_estimate_le.2 n (by omega)
    have hcast : (2 : Rat) ^ n ≤ 10 ^ ((n * 30103 + 99999) / 100000 + 2) := by
      rw [pow_add]
      have hcast' : (2 : Rat) ^ n ≤ 100 * 10 ^ ((n * 30103 + 99999) / 100000) := by
        exact_mod_cast hestimate
      linarith
    have hexponent : -(n : Int) * 30103 / 100000 - 2 =
        -(((n * 30103 + 99999) / 100000 + 2 : Nat) : Int) := by
      omega
    rw [hexponent, zpow_neg, zpow_neg, zpow_natCast, zpow_natCast]
    exact inv_anti₀ (by positivity) hcast

theorem zpow_log2_le (hx : 0 < x.mantissa) :
    (2 : Rat) ^ ((x.mantissa.log2 : Int) + x.exponent) ≤ x.toRat := by
  have hlog : (2 : Rat) ^ x.mantissa.log2 ≤ x.mantissa := by
    exact_mod_cast Nat.log2_self_le hx.ne'
  rw [zpow_add₀ (by norm_num), zpow_natCast]
  exact mul_le_mul_of_nonneg_right hlog (by positivity)

theorem zpow_le_of_not_above {k : Int}
    (h : decide (compareScaled ⟨1, k⟩ x.mantissa x.exponent = .gt) = false) :
    (10 : Rat) ^ k ≤ x.toRat := by
  have hnot := of_decide_eq_false h
  rw [compareScaled_eq_gt, not_lt] at hnot
  unfold Decimal.toRat at hnot
  rw [Nat.cast_one, one_mul] at hnot
  exact hnot

theorem zpow_decimalSize_le (hx : x.InRange) : (10 : Rat) ^ (decimalSize x - 1) ≤ x.toRat := by
  have hlog : x.mantissa.log2 < 53 := (Nat.log2_lt hx.pos.ne').mpr hx.mantissa
  have hlow := hx.low
  have hhigh := hx.high
  have hestimate : (10 : Rat) ^ (((x.mantissa.log2 : Int) + x.exponent) * 30103 / 100000 - 2) ≤
      2 ^ ((x.mantissa.log2 : Int) + x.exponent) := zpow_estimate_le (by omega) (by omega)
  have hfirst := hestimate.trans (zpow_log2_le hx.pos)
  unfold decimalSize
  simp only [List.map_cons, List.map_nil, List.find?_cons]
  generalize ((x.mantissa.log2 : Int) + x.exponent) * 30103 / 100000 = estimate at *
  -- The size before the one that was found is not above the number.
  split
  next =>
    show (10 : Rat) ^ (estimate - 1 + 0 - 1) ≤ x.toRat
    rw [show estimate - 1 + 0 - 1 = estimate - 2 by omega]
    exact hfirst
  next hnot =>
    split
    next =>
      show (10 : Rat) ^ (estimate - 1 + 1 - 1) ≤ x.toRat
      rw [show estimate - 1 + 1 - 1 = estimate - 1 + 0 by omega]
      exact zpow_le_of_not_above hnot
    next hnot =>
      split
      next =>
        show (10 : Rat) ^ (estimate - 1 + 2 - 1) ≤ x.toRat
        rw [show estimate - 1 + 2 - 1 = estimate - 1 + 1 by omega]
        exact zpow_le_of_not_above hnot
      next hnot =>
        have hthird : (10 : Rat) ^ (estimate - 1 + 3 - 1) ≤ x.toRat := by
          rw [show estimate - 1 + 3 - 1 = estimate - 1 + 2 by omega]
          exact zpow_le_of_not_above hnot
        split
        · exact hthird
        · exact hthird

/-!
# The search
-/

theorem toRat_withoutTrailingZeros (d : Decimal) : (withoutTrailingZeros d).toRat = d.toRat := by
  fun_induction withoutTrailingZeros d with
  | case1 d h => rfl
  | case2 d hne hmod ih =>
      have hten : ((d.digits / 10 : Nat) : Rat) * 10 = d.digits := by
        exact_mod_cast Nat.div_mul_cancel (Nat.dvd_of_mod_eq_zero hmod)
      rw [ih]
      unfold Decimal.toRat
      show ((d.digits / 10 : Nat) : Rat) * 10 ^ (d.exponent + 1) = _
      rw [zpow_add_one₀ (by norm_num), ← mul_assoc, mul_right_comm, hten]
  | case3 d hne hmod => rfl

/-- The decimal that is selected rounds to the number. -/
theorem rounds_select (hx : x.InRange) : x.Rounds (select x).toRat := by
  unfold select
  simp only
  rw [toRat_withoutTrailingZeros]
  cases hfound : (List.range 17).findSome? fun (n : Nat) => onGrid? x (decimalSize x - 1 - n) with
  | some d =>
      rcases List.exists_of_findSome?_eq_some hfound with ⟨n, _, hgrid⟩
      exact rounds_of_onGrid? hx.pos hgrid
  | none =>
      have hlast := List.findSome?_eq_none_iff.mp hfound 16 (by decide)
      refine absurd hlast (onGrid?_ne_none hx ?_)
      have hsize := zpow_decimalSize_le hx
      have hexponent : decimalSize x - 1 - (16 : Nat) + (16 : Nat) = decimalSize x - 1 := by
        omega
      rw [← zpow_natCast, ← zpow_add₀ (by norm_num), hexponent]
      exact hsize

end Shortest
end Number
end CodeSurvey
