import CodeSurvey.Number.Binary
import CodeSurvey.Text.Decimal

/-!
# The shortest text of a floating-point number

A floating-point number stands for an interval of reals: all that round to it.
Its text has the fewest digits whose value lies in that interval, and among those
the ones nearest to the number.  The search tries 1, 2, ... 17 digits; for each
count only the two neighbours of the number on that decimal grid can be nearest.
-/

namespace CodeSurvey
namespace Number

/-- The value `digits * 10 ^ exponent`. -/
structure Decimal where
  digits : Nat
  exponent : Int
deriving DecidableEq, Repr

namespace Shortest

/-- Compare `digits * 10 ^ exponent` with `num * 2 ^ scale`, exactly. -/
def compareScaled (d : Decimal) (num : Nat) (scale : Int) : Ordering :=
  compare (d.digits * Nat.pow 10 d.exponent.toNat * Nat.pow 2 (-scale).toNat)
    (num * Nat.pow 2 scale.toNat * Nat.pow 10 (-d.exponent).toNat)

/-- Whether the decimal lies among the reals that round to the number; the ends of
the interval belong to it exactly when the mantissa is even. -/
def readsBack (x : Binary) (d : Decimal) : Bool :=
  let low := if x.narrowBelow then 4 * x.mantissa - 1 else 4 * x.mantissa - 2
  let high := 4 * x.mantissa + 2
  let closed := x.mantissa % 2 = 0
  let atLow := compareScaled d low (x.exponent - 2)
  let atHigh := compareScaled d high (x.exponent - 2)
  (atLow = .gt || (closed && atLow = .eq)) && (atHigh = .lt || (closed && atHigh = .eq))

/-- The least `k` with the number below `10 ^ k`, from its binary size. -/
def decimalSize (x : Binary) : Int :=
  let estimate := ((x.mantissa.log2 : Int) + x.exponent) * 30103 / 100000 - 1
  let above := fun k => compareScaled ⟨1, k⟩ x.mantissa x.exponent = .gt
  (([0, 1, 2, 3].map fun i => estimate + i).find? fun k => above k).getD (estimate + 3)

def gridFloor (x : Binary) (unit : Int) : Nat :=
  (x.numerator * Nat.pow 10 (-unit).toNat) / (x.denominator * Nat.pow 10 unit.toNat)

/-- The better of the two neighbours on the grid `10 ^ unit`, if one reads back. -/
def onGrid? (x : Binary) (unit : Int) : Option Decimal :=
  let floor := gridFloor x unit
  let below : Decimal := ⟨floor, unit⟩
  let above : Decimal := ⟨floor + 1, unit⟩
  match readsBack x below, readsBack x above with
  | false, false => none
  | true, false => some below
  | false, true => some above
  | true, true =>
      match compareScaled ⟨2 * floor + 1, unit⟩ (2 * x.mantissa) x.exponent with
      | .gt => some below
      | .lt => some above
      | .eq => some (if floor % 2 = 0 then below else above)

def withoutTrailingZeros (d : Decimal) : Decimal :=
  if d.digits = 0 then d
  else if d.digits % 10 = 0 then withoutTrailingZeros ⟨d.digits / 10, d.exponent + 1⟩
  else d
termination_by d.digits
decreasing_by omega

/-- The shortest decimal that reads back to a positive number. -/
def select (x : Binary) : Decimal :=
  let size := decimalSize x
  let found := (List.range 17).findSome? fun (n : Nat) => onGrid? x (size - 1 - n)
  withoutTrailingZeros (found.getD ⟨gridFloor x (size - 17), size - 17⟩)

/-!
# Layout

A number is written positionally, with at least one digit on each side of the
point, when its leading digit stands between the fifth place behind the point and
the sixteenth in front of it; otherwise with an exponent, which always carries a sign.
-/

def exponentPart (n : Int) : List Char :=
  ['e', if n < 0 then '-' else '+'] ++ Text.Decimal.digits n.natAbs

def layout (d : Decimal) : List Char :=
  let ds := Text.Decimal.digits d.digits
  let point : Int := ds.length + d.exponent
  if 0 ≤ d.exponent ∧ point ≤ 16 then
    ds ++ List.replicate d.exponent.toNat '0' ++ ['.', '0']
  else if 0 < point ∧ point ≤ 16 then
    ds.take point.toNat ++ '.' :: ds.drop point.toNat
  else if -5 < point ∧ point ≤ 0 then
    ['0', '.'] ++ List.replicate (-point).toNat '0' ++ ds
  else
    let exponent := exponentPart (point - 1)
    match ds with
    | [only] => only :: exponent
    | first :: rest => first :: '.' :: rest ++ exponent
    | [] => exponent

def chars (x : Float) : List Char :=
  let magnitude := Binary.ofFloat x
  let body := if magnitude.mantissa = 0 then ['0', '.', '0'] else layout (select magnitude)
  if isNegative x then '-' :: body else body

end Shortest
end Number
end CodeSurvey
