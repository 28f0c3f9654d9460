/-!
# Log entries

What a component has to say about its work: a level, a message, and named details in
a fixed order.
-/

namespace CodeSurvey
namespace Log

inductive Level where
  | trace
  | debug
  | info
  | warn
  | error
deriving DecidableEq, Repr

namespace Level

def name : Level -> String
  | .trace => "TRACE"
  | .debug => "DEBUG"
  | .info => "INFO"
  | .warn => "WARN"
  | .error => "ERROR"

/-- Levels by weight, from the chattiest to the gravest. -/
def weight : Level -> Nat
  | .trace => 0
  | .debug => 1
  | .info => 2
  | .warn => 3
  | .error => 4

end Level

inductive Detail where
  | text (value : String)
  | integer (value : Int)
  | flag (value : Bool)
deriving DecidableEq, Repr

structure Entry where
  level : Level
  message : String
  details : List (String × Detail)
deriving DecidableEq, Repr

namespace Entry

def debug (message : String) (details : List (String × Detail)) : Entry :=
  { level := .debug, message, details }

def info (message : String) (details : List (String × Detail)) : Entry :=
  { level := .info, message, details }

def warn (message : String) (details : List (String × Detail)) : Entry :=
  { level := .warn, message, details }

def error (message : String) (details : List (String × Detail)) : Entry :=
  { level := .error, message, details }

end Entry

def Detail.nat (n : Nat) : Detail :=
  .integer n

end Log
end CodeSurvey
