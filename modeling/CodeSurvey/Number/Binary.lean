/-!
# Exact values of floating-point numbers

A finite floating-point number is a mantissa times a power of two.  Everything
that is printed about it (its shortest text, its text with a fixed number of
places) is decided on these two integers by exact arithmetic.
-/

namespace CodeSurvey
namespace Number

/-- The magnitude `mantissa * 2 ^ exponent` of a finite floating-point number. -/
structure Binary where
  mantissa : Nat
  exponent : Int
  /-- The number below is half as far away as the number above. -/
  narrowBelow : Bool
deriving DecidableEq, Repr

namespace Binary

/-- The magnitude of a finite number, read from its bits. -/
def ofFloat (x : Float) : Binary :=
  let bits := x.toBits.toNat % Nat.pow 2 63
  let field := bits / Nat.pow 2 52
  let fraction := bits % Nat.pow 2 52
  if field = 0 then
    { mantissa := fraction, exponent := -1074, narrowBelow := false }
  else
    { mantissa := Nat.pow 2 52 + fraction, exponent := Int.ofNat field - 1075,
      narrowBelow := fraction = 0 && field > 1 }

def numerator (x : Binary) : Nat :=
  x.mantissa * Nat.pow 2 x.exponent.toNat

def denominator (x : Binary) : Nat :=
  Nat.pow 2 (-x.exponent).toNat

end Binary

def isNegative (x : Float) : Bool :=
  Nat.pow 2 63 ≤ x.toBits.toNat

/-- The integer nearest to a fraction; a half goes to the even neighbour. -/
def roundedQuotient (num den : Nat) : Nat :=
  let q := num / den
  match compare (2 * (num % den)) den with
  | .lt => q
  | .gt => q + 1
  | .eq => if q % 2 = 0 then q else q + 1

end Number
end CodeSurvey
