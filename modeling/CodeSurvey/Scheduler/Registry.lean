import CodeSurvey.Scheduler.Event

/-!
# Observers

A registry holds the observers of a scheduler in the order in which they subscribed.
Each is known by a token, a number that the registry gives out once.  A copy of a
registry goes its own way from then on.
-/

namespace CodeSurvey
namespace Scheduler

structure Token where
  number : Nat
deriving DecidableEq, Repr

namespace Token

def describe (t : Token) : String :=
  "SubscriptionId(" ++ Text.Decimal.natText t.number ++ ")"

end Token

structure Registry (b : Type) where
  /-- The number of the last token that was given out. -/
  lastToken : Nat
  observers : List (Token × b)
deriving Repr

namespace Registry

def empty : Registry b :=
  { lastToken := 0, observers := [] }

def size (r : Registry b) : Nat :=
  r.observers.length

def isEmpty (r : Registry b) : Bool :=
  r.observers.isEmpty

def tokens (r : Registry b) : List Token :=
  r.observers.map Prod.fst

def subscribe (r : Registry b) (observer : b) : Registry b × Token :=
  let token : Token := ⟨r.lastToken + 1⟩
  ({ lastToken := r.lastToken + 1, observers := r.observers ++ [(token, observer)] }, token)

/-- Remove the observer with a token, and say whether there was one. -/
def unsubscribe (r : Registry b) (token : Token) : Registry b × Bool :=
  let left := r.observers.filter fun o => o.1 ≠ token
  ({ r with observers := left }, left.length ≠ r.observers.length)

/-- Every observer is told of an event, one after the other. -/
def broadcast (r : Registry b) (tell : s -> b -> Event -> s) (state : s) (e : Event) : s :=
  r.observers.foldl (fun state o => tell state o.2 e) state

def describe (r : Registry b) : String :=
  "ReporterRegistry \x7b reporters: " ++ Text.Decimal.natText r.size ++ " \x7d"

end Registry
end Scheduler
end CodeSurvey
