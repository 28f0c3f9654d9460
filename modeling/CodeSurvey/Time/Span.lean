import CodeSurvey.Number.Fixed

/-!
# Spans of time

A span is a whole number of nanoseconds.  Its text names the largest unit of which it
has at least one (seconds, milliseconds, microseconds, nanoseconds) and shows the rest
as a fraction without trailing zeros.
-/

namespace CodeSurvey
namespace Time

structure Span where
  nanos : Nat
deriving DecidableEq, Repr

namespace Span

def zero : Span := ⟨0⟩

def ofMillis (ms : Nat) : Span := ⟨ms * 1000000⟩

def ofMicros (us : Nat) : Span := ⟨us * 1000⟩

def millis (s : Span) : Nat := s.nanos / 1000000

def micros (s : Span) : Nat := s.nanos / 1000

/-- The span in seconds: the whole seconds plus the rounded fraction. -/
def seconds (s : Span) : Float :=
  Float.ofNat (s.nanos / 1000000000) + Float.ofNat (s.nanos % 1000000000) / 1000000000

/-- The span of a finite non-negative number of seconds, to the nearest nanosecond. -/
def ofSeconds (x : Float) : Span :=
  let exact := Number.Binary.ofFloat x
  ⟨Number.roundedQuotient (exact.numerator * 1000000000) exact.denominator⟩

def fractionDigits (places part : Nat) : List Char :=
  ((Text.Decimal.padded places part).reverse.dropWhile (· = '0')).reverse

/-- A count of units with `places` digits behind the point, as few as needed. -/
def inUnit (nanos places : Nat) (unit : String) : String :=
  let whole := Text.Decimal.digits (nanos / Nat.pow 10 places)
  let fraction :=
    match fractionDigits places (nanos % Nat.pow 10 places) with
    | [] => []
    | ds => '.' :: ds
  String.ofList (whole ++ fraction) ++ unit

def text (s : Span) : String :=
  if s.nanos ≥ 1000000000 then inUnit s.nanos 9 "s"
  else if s.nanos ≥ 1000000 then inUnit s.nanos 6 "ms"
  else if s.nanos ≥ 1000 then inUnit s.nanos 3 "µs"
  else inUnit s.nanos 0 "ns"

end Span
end Time
end CodeSurvey
