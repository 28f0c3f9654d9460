import CodeSurvey.Log.Entry

/-!
# Outcomes of an operation

An operation on a component leaves a new state, gives a result, and may have something
to say.
-/

namespace CodeSurvey
namespace Log

structure Outcome (s a : Type) where
  state : s
  result : a
  log : List Entry

namespace Outcome

/-- An outcome with nothing to say. -/
def quiet (state : s) (result : a) : Outcome s a :=
  { state, result, log := [] }

def map (f : a -> b) (o : Outcome s a) : Outcome s b :=
  { state := o.state, result := f o.result, log := o.log }

end Outcome
end Log
end CodeSurvey
