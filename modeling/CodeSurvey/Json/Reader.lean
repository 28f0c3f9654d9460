import CodeSurvey.Json.Outline
import CodeSurvey.Record.Fields

/-!
# Reading typed values from JSON

Readers for the values that records hold, and the ways a typed value is read: from a
text, where the first fault decides what is reported, and from a value that is
already read, where only its shape can be wrong.
-/

namespace CodeSurvey
namespace Json

abbrev Reader (a : Type) :=
  Record.Reader Outline a

namespace Reader

/-- Integers from `low` up to and excluding `high`. -/
def integer (low high : Int) : Reader Int
  | .number (some (.integer i)) => if low ≤ i ∧ i < high then .ok i else .error .mismatch
  | o => .error o.otherwise

def natural : Reader Nat
  | .number (some (.integer i)) => if 0 ≤ i then .ok i.toNat else .error .mismatch
  | o => .error o.otherwise

def text : Reader String
  | .text (some s) => .ok s
  | o => .error o.otherwise

def flag : Reader Bool
  | .flag b => .ok b
  | o => .error o.otherwise

end Reader

/-- The ending of an array or object, as a fault. -/
def Ending.fault : Ending -> Option Fault
  | .closed => none
  | .cut _ => some .malformed

instance : Record.Source Outline where
  parts
    | .object members ending => .named members ending.fault
    | .array items ending => .listed items ending.fault
    | .deep _ => .neither .malformed
    | o => .neither o.otherwise
  skipFault := Outline.skipFault
  surplus := some .malformed
  isAbsent
    | .null => .ok true
    | _ => .ok false
  flag := Reader.flag
  text := Reader.text
  natural := Reader.natural

namespace Reader

def list (r : Reader a) : Reader (List a)
  | .array items ending => do
      let xs ← items.mapM r
      match ending.fault with
      | some fault => .error fault
      | none => return xs
  | .deep _ => .error .malformed
  | o => .error o.otherwise

/-- A name out of a list, written as a string or as an object whose only member has
the name for its key and is null. -/
def oneOf (names : List (String × a)) : Reader a
  | .text (some name) => named name
  | .object members ending =>
      match members, ending with
      | [], .closed | (none, _) :: _, _ => .error .malformed
      | [], .cut fault => .error fault
      | (some name, content) :: rest, ending => do
          let x ← named name
          match content with
          | .null => if rest.isEmpty && ending = .closed then return x else .error .malformed
          | o => .error o.otherwise
  | _ => .error .malformed
where
  named (name : String) : Except Fault a :=
    match names.lookup name with
    | some x => .ok x
    | none => .error .mismatch

def readText (r : Reader a) (s : String) : Except Fault a := do
  let (outline, trailing) := Outline.ofText s
  let x ← r outline
  if trailing then .error .malformed else return x

/-- Read a value that is already JSON: only its shape can be wrong. -/
def readValue (r : Reader a) (v : Value) : Except Fault a :=
  (r (Outline.ofValue v)).mapError fun _ => .mismatch

end Reader
end Json
end CodeSurvey
