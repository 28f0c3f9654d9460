import CodeSurvey.Json.Printer
import CodeSurvey.Scheduler.State
import CodeSurvey.Text.Quoted

/-!
# Scripted processors

A scripted processor works on JSON values.  For every name it has a list of actions:
the first attempt at an input of that name takes the first one, and so on, and when the
list is used up its last action is taken again.
-/

namespace CodeSurvey
namespace Simulation

open Scheduler (Setback)

inductive Ending where
  | value (v : Json.Value)
  /-- The input is the result. -/
  | echo
  | failure (text : String)
  | panic (text : String)
deriving BEq, Repr

namespace Ending

/-- An error inside of contexts, the outermost one named first. -/
def inContexts (text : String) (contexts : List String) : Ending :=
  .failure (": ".intercalate (contexts.reverse ++ [text]))

def panicText (text : String) : String :=
  "processor panicked: task N panicked with message " ++ Text.Quoted.text text

def outcome (e : Ending) (input : Json.Value) : Except Setback Json.Value :=
  match e with
  | .value v => .ok v
  | .echo => .ok input
  | .failure text => .error (.execution text)
  | .panic text => .error (.execution (panicText text))

end Ending

structure Action where
  /-- How many milliseconds the attempt takes. -/
  sleep : Nat
  ending : Ending
deriving BEq, Repr

def Action.echo : Action :=
  { sleep := 0, ending := .echo }

structure Script where
  named : List (String × List Action)
  fallback : List Action
deriving BEq, Repr

namespace Script

/-- The action of the `n`-th attempt, counted from one, at inputs of a name. -/
def action (s : Script) (name : String) (n : Nat) : Action :=
  let actions := ((s.named.lookup name).filter fun actions => !actions.isEmpty).getD s.fallback
  (actions[n - 1]?.or actions.getLast?).getD .echo

end Script

/-- A script in use; attempts are counted for each use of a script. -/
structure Processor where
  number : Nat
  script : Script
deriving BEq, Repr

def inputName (input : Json.Value) : String :=
  match (input.member? "name").bind Json.Value.text?, input with
  | some name, _ => name
  | none, .text s => s
  | none, _ => input.compact

/-- An input that says so cannot be written. -/
def encodeInput (input : Json.Value) : Option Json.Value :=
  match input.member? "no_json" with
  | some (.flag true) => none
  | _ => some input

def coding : Scheduler.Coding Json.Value Json.Value :=
  { input := encodeInput, output := .json }

end Simulation
end CodeSurvey
