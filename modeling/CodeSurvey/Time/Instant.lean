/-!
# Points in time

A point in time is counted in whole seconds from the start of 1970 and in
nanoseconds within the second.  During a leap second the nanoseconds run on past one
thousand million.  The clock of the surrounding system is read in milliseconds.
-/

namespace CodeSurvey
namespace Time

structure Instant where
  seconds : Int
  nanos : Nat
deriving DecidableEq, Repr

namespace Instant

def nanosPerSecond : Nat := 1000000000

def ofMillis (ms : Int) : Instant :=
  { seconds := ms.fdiv 1000, nanos := (ms.fmod 1000).toNat * 1000000 }

/-- Whole milliseconds since the start of 1970. -/
def millis (t : Instant) : Int :=
  t.seconds * 1000 + (t.nanos / 1000000 : Nat)

end Instant
end Time
end CodeSurvey
