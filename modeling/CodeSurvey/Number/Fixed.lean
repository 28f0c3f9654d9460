import CodeSurvey.Number.Binary
import CodeSurvey.Text.Decimal

/-!
# Fixed numbers of places

A number is written with a fixed number of places by rounding its exact value, a
half to the even neighbour, and setting the point.
-/

namespace CodeSurvey
namespace Number
namespace Fixed

/-- A count of units of the last place, written with the point. -/
def withPoint (places units : Nat) : String :=
  let ds := Text.Decimal.padded (places + 1) units
  String.ofList (ds.take (ds.length - places) ++ '.' :: ds.drop (ds.length - places))

def text (places : Nat) (x : Float) : String :=
  let exact := Binary.ofFloat x
  withPoint places (roundedQuotient (exact.numerator * Nat.pow 10 places) exact.denominator)

end Fixed
end Number
end CodeSurvey
