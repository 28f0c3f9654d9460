import CodeSurvey.Scheduler.Attempts

/-!
# Calls of the scheduler

A call changes the state at once; then tasks are started, if the change allows it.  What
else happens around a call (who is told of the events, who carries out the attempts) is
the business of the host that holds the scheduler.
-/

namespace CodeSurvey
namespace Scheduler

abbrev Call (p i o a : Type) :=
  State p i o -> Change (State p i o) a

/-- How calls are made in a world `w` that holds a scheduler. -/
structure Host (p i o w : Type) where
  state : w -> State p i o
  now : w -> Int
  call : {a : Type} -> w -> Call p i o a -> w × a
  write : w -> List Log.Entry -> w

namespace State

def perform (s : State p i o) (now : Int) (call : Call p i o a) : Change (State p i o) a :=
  let change := call s
  if change.dispatches then { change with state := (change.state.dispatch now).1 } else change

end State

/-- A scheduler on its own: nobody takes its events, which pile up in its state. -/
structure Alone (p i o : Type) where
  state : State p i o
  now : Int
  log : List Log.Entry

namespace Alone

def host : Host p i o (Alone p i o) :=
  { state := Alone.state
    now := Alone.now
    call := fun x call =>
      let change := x.state.perform x.now call
      ({ x with state := change.state, log := x.log ++ change.log }, change.result)
    write := fun x entries => { x with log := x.log ++ entries } }

end Alone
end Scheduler
end CodeSurvey
