import CodeSurvey.Number.Shortest
import Mathlib.Algebra.Order.Field.Power
import Mathlib.Algebra.Order.Ring.Rat
import Mathlib.Tactic.Linarith
import Mathlib.Tactic.Ring

/-!
# The rationals that round to a floating-point number

The numbers that round to one floating-point number lie between two bounds, half way to its
neighbours.  The upper bound of a number is the lower bound of the next one and belongs to
the one with the even mantissa, so that no rational rounds to two numbers.
-/

namespace CodeSurvey
namespace Number

namespace Decimal

def toRat (d : Decimal) : Rat :=
  d.digits * 10 ^ d.exponent

end Decimal

namespace Shortest

theorem zpow_toNat (b : Rat) (hb : b ≠ 0) (e : Int) :
    b ^ e * b ^ (-e).toNat = b ^ e.toNat := by
  rw [← zpow_natCast, ← zpow_natCast, ← zpow_add₀ hb]
  congr 1
  omega

theorem exists_scale (d : Decimal) (num : Nat) (scale : Int) :
    exists k : Rat, 0 < k ∧
      ((d.digits * Nat.pow 10 d.exponent.toNat * Nat.pow 2 (-scale).toNat : Nat) : Rat) =
        d.toRat * k ∧
      ((num * Nat.pow 2 scale.toNat * Nat.pow 10 (-d.exponent).toNat : Nat) : Rat) =
        num * 2 ^ scale * k := by
  have hten := zpow_toNat 10 (by norm_num) d.exponent
  have htwo := zpow_toNat 2 (by norm_num) scale
  refine ⟨10 ^ (-d.exponent).toNat * 2 ^ (-scale).toNat, by positivity, ?_, ?_⟩
  · unfold Decimal.toRat
    push_cast [Nat.pow_eq]
    rw [← hten]
    ring
  · push_cast [Nat.pow_eq]
    rw [← htwo]
    ring

theorem compareScaled_eq_lt {d : Decimal} {num : Nat} {scale : Int} :
    compareScaled d num scale = .lt ↔ d.toRat < num * 2 ^ scale := by
  rcases exists_scale d num scale with ⟨k, hk, hleft, hright⟩
  unfold compareScaled
  rw [Nat.compare_eq_lt, ← Nat.cast_lt (α := Rat), hleft, hright, mul_lt_mul_iff_left₀ hk]

theorem compareScaled_eq_gt {d : Decimal} {num : Nat} {scale : Int} :
    compareScaled d num scale = .gt ↔ num * 2 ^ scale < d.toRat := by
  rcases exists_scale d num scale with ⟨k, hk, hleft, hright⟩
  unfold compareScaled
  rw [Nat.compare_eq_gt, ← Nat.cast_lt (α := Rat), hleft, hright, mul_lt_mul_iff_left₀ hk]

theorem compareScaled_eq_eq {d : Decimal} {num : Nat} {scale : Int} :
    compareScaled d num scale = .eq ↔ d.toRat = num * 2 ^ scale := by
  rcases exists_scale d num scale with ⟨k, hk, hleft, hright⟩
  unfold compareScaled
  rw [Nat.compare_eq_eq, ← Nat.cast_inj (R := Rat), hleft, hright, mul_left_inj' hk.ne']

end Shortest

/-!
# Bounds
-/

namespace Binary

def toRat (x : Binary) : Rat :=
  x.mantissa * 2 ^ x.exponent

def lower (x : Binary) : Rat :=
  (x.mantissa - if x.narrowBelow then 1 / 4 else 1 / 2) * 2 ^ x.exponent

def upper (x : Binary) : Rat :=
  (x.mantissa + 1 / 2) * 2 ^ x.exponent

/-- The rational rounds to the number. -/
structure Rounds (x : Binary) (r : Rat) : Prop where
  lower : x.lower < r ∨ x.mantissa % 2 = 0 ∧ x.lower = r
  upper : r < x.upper ∨ x.mantissa % 2 = 0 ∧ r = x.upper

end Binary

namespace Shortest

theorem zpow_sub_two (e : Int) : (2 : Rat) ^ (e - 2) = 2 ^ e / 4 := by
  rw [zpow_sub₀ (by norm_num)]
  norm_num

/-- A decimal reads back exactly when it rounds to the number. -/
theorem readsBack_iff {x : Binary} (hx : 0 < x.mantissa) {d : Decimal} :
    readsBack x d = true ↔ x.Rounds d.toRat := by
  have hlow : ((if x.narrowBelow then 4 * x.mantissa - 1 else 4 * x.mantissa - 2 : Nat) : Rat) *
      2 ^ (x.exponent - 2) = x.lower := by
    unfold Binary.lower
    rw [zpow_sub_two]
    split
    · rw [Nat.cast_sub (by omega)]
      push_cast
      ring
    · rw [Nat.cast_sub (by omega)]
      push_cast
      ring
  have hhigh : ((4 * x.mantissa + 2 : Nat) : Rat) * 2 ^ (x.exponent - 2) = x.upper := by
    unfold Binary.upper
    rw [zpow_sub_two]
    push_cast
    ring
  unfold readsBack
  simp only [Bool.and_eq_true, Bool.or_eq_true, decide_eq_true_eq]
  rw [compareScaled_eq_gt, compareScaled_eq_eq, compareScaled_eq_lt, compareScaled_eq_eq, hlow,
    hhigh, eq_comm (a := d.toRat) (b := x.lower)]
  exact ⟨fun h => ⟨h.1, h.2⟩, fun h => ⟨h.lower, h.upper⟩⟩

end Shortest

/-!
# Neighbours
-/

namespace Binary

/-- The magnitude with these fields for its exponent and its fraction. -/
def ofFields (field fraction : Nat) : Binary :=
  if field = 0 then { mantissa := fraction, exponent := -1074, narrowBelow := false }
  else
    { mantissa := Nat.pow 2 52 + fraction, exponent := Int.ofNat field - 1075,
      narrowBelow := fraction = 0 && field > 1 }

def ofBits (bits : Nat) : Binary :=
  ofFields (bits / Nat.pow 2 52) (bits % Nat.pow 2 52)

theorem ofFloat_eq (x : Float) : ofFloat x = ofBits (x.toBits.toNat % Nat.pow 2 63) :=
  rfl

theorem ofFields_zero (fraction : Nat) :
    ofFields 0 fraction = { mantissa := fraction, exponent := -1074, narrowBelow := false } :=
  rfl

theorem ofFields_succ (field fraction : Nat) :
    ofFields (field + 1) fraction =
      { mantissa := Nat.pow 2 52 + fraction, exponent := Int.ofNat (field + 1) - 1075,
        narrowBelow := fraction = 0 && field + 1 > 1 } :=
  rfl

theorem mantissa_ofFields (field fraction : Nat) :
    (ofFields field fraction).mantissa = fraction ∨
      (ofFields field fraction).mantissa = Nat.pow 2 52 + fraction := by
  cases field with
  | zero => exact Or.inl rfl
  | succ field => exact Or.inr rfl

theorem mantissa_ofBits_lt (bits : Nat) : (ofBits bits).mantissa < Nat.pow 2 53 := by
  have hlt : bits % Nat.pow 2 52 < Nat.pow 2 52 := Nat.mod_lt _ (by decide)
  have hpow : Nat.pow 2 53 = Nat.pow 2 52 + Nat.pow 2 52 := by decide
  rcases mantissa_ofFields (bits / Nat.pow 2 52) (bits % Nat.pow 2 52) with hm | hm
  · show (ofFields _ _).mantissa < _
    omega
  · show (ofFields _ _).mantissa < _
    omega

theorem mantissa_ofBits_mod_two (bits : Nat) : (ofBits bits).mantissa % 2 = bits % 2 := by
  have hpow : Nat.pow 2 52 = 2 * Nat.pow 2 51 := by decide
  have hmod : bits % Nat.pow 2 52 % 2 = bits % 2 :=
    Nat.mod_mod_of_dvd bits ⟨Nat.pow 2 51, hpow⟩
  rcases mantissa_ofFields (bits / Nat.pow 2 52) (bits % Nat.pow 2 52) with hm | hm
  · show (ofFields _ _).mantissa % 2 = _
    rw [hm, hmod]
  · show (ofFields _ _).mantissa % 2 = _
    omega

theorem upper_ofFields (field fraction : Nat) :
    (ofFields field fraction).upper = (ofFields field (fraction + 1)).lower := by
  cases field with
  | zero =>
      rw [ofFields_zero, ofFields_zero]
      unfold upper lower
      congr 1
      push_cast
      ring
  | succ field =>
      rw [ofFields_succ, ofFields_succ]
      unfold upper lower
      congr 1
      push_cast
      rw [if_neg (by simp)]
      ring

theorem upper_ofFields_last (field : Nat) :
    (ofFields field (Nat.pow 2 52 - 1)).upper = (ofFields (field + 1) 0).lower := by
  cases field with
  | zero =>
      rw [ofFields_zero, ofFields_succ]
      unfold upper lower
      have hexponent : Int.ofNat (0 + 1) - 1075 = -1074 := rfl
      rw [hexponent]
      congr 1
      norm_num
  | succ field =>
      rw [ofFields_succ, ofFields_succ]
      unfold upper lower
      have hexponent : Int.ofNat (field + 1 + 1) - 1075 = Int.ofNat (field + 1) - 1075 + 1 := by
        show ((field + 1 + 1 : Nat) : Int) - 1075 = ((field + 1 : Nat) : Int) - 1075 + 1
        omega
      simp only [hexponent]
      rw [zpow_add_one₀ (by norm_num)]
      norm_num
      ring

theorem upper_ofBits (bits : Nat) : (ofBits bits).upper = (ofBits (bits + 1)).lower := by
  have hmod : bits % Nat.pow 2 52 < Nat.pow 2 52 := Nat.mod_lt _ (by decide)
  have hbits := Nat.div_add_mod bits (Nat.pow 2 52)
  unfold ofBits
  generalize bits / Nat.pow 2 52 = field at hbits
  generalize bits % Nat.pow 2 52 = fraction at hbits hmod
  subst hbits
  rw [Nat.add_assoc, Nat.mul_add_div (by decide), Nat.mul_add_mod]
  rcases Nat.lt_or_eq_of_le hmod with hless | hlast
  · rw [Nat.div_eq_of_lt hless, Nat.mod_eq_of_lt hless]
    exact upper_ofFields field fraction
  · rw [show fraction + 1 = Nat.pow 2 52 from hlast, Nat.div_self (by decide), Nat.mod_self,
      show fraction = Nat.pow 2 52 - 1 by omega]
    exact upper_ofFields_last field

theorem lower_lt_upper (x : Binary) : x.lower < x.upper := by
  have hpow : (0 : Rat) < 2 ^ x.exponent := by positivity
  unfold lower upper
  apply mul_lt_mul_of_pos_right _ hpow
  split <;> linarith

theorem lower_strictMono : StrictMono fun bits => (ofBits bits).lower := by
  apply strictMono_nat_of_lt_succ
  intro bits
  show (ofBits bits).lower < (ofBits (bits + 1)).lower
  rw [← upper_ofBits]
  exact lower_lt_upper _

theorem Rounds.lower_le {x : Binary} {r : Rat} (h : x.Rounds r) : x.lower ≤ r := by
  cases h.lower with
  | inl hlt => exact hlt.le
  | inr heq => exact heq.2.le

theorem Rounds.le_upper {x : Binary} {r : Rat} (h : x.Rounds r) : r ≤ x.upper := by
  cases h.upper with
  | inl hlt => exact hlt.le
  | inr heq => exact heq.2.le

theorem Rounds.not_lt {m n : Nat} {r : Rat} (hm : (ofBits m).Rounds r)
    (hn : (ofBits n).Rounds r) : ¬ m < n := by
  intro hlt
  have hle : (ofBits (m + 1)).lower ≤ (ofBits n).lower := lower_strictMono.monotone hlt
  have hmeet := upper_ofBits m
  -- The rational is where the two meet, so both mantissas are even.
  have hupper : r = (ofBits m).upper := le_antisymm hm.le_upper (hmeet ▸ hle.trans hn.lower_le)
  have hlower : (ofBits n).lower = r := le_antisymm hn.lower_le (hupper ▸ hmeet ▸ hle)
  have hnext : n = m + 1 := lower_strictMono.injective (hlower.trans (hupper.trans hmeet))
  have heven : (ofBits m).mantissa % 2 = 0 := by
    cases hm.upper with
    | inl hlt => exact absurd hupper hlt.ne
    | inr heq => exact heq.1
  have heven' : (ofBits n).mantissa % 2 = 0 := by
    cases hn.lower with
    | inl hlt => exact absurd hlower hlt.ne
    | inr heq => exact heq.1
  rw [mantissa_ofBits_mod_two] at heven heven'
  omega

/-- No rational rounds to two numbers. -/
theorem Rounds.eq {m n : Nat} {r : Rat} (hm : (ofBits m).Rounds r) (hn : (ofBits n).Rounds r) :
    m = n :=
  Nat.le_antisymm (Nat.not_lt.mp (hn.not_lt hm)) (Nat.not_lt.mp (hm.not_lt hn))

end Binary
end Number
end CodeSurvey
