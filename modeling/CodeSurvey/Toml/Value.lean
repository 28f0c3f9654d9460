import CodeSurvey.Record.Fields

/-!
# TOML values

What a TOML document holds.  Of floating-point numbers and of dates and times only
their presence is kept.
-/

namespace CodeSurvey
namespace Toml

inductive Value where
  | text (value : String)
  | integer (value : Int)
  | flag (value : Bool)
  | float
  | dateTime
  | array (items : List Value)
  | table (entries : List (String × Value))
deriving BEq, Repr

/-- A list may be longer than the record that is read from it, and a date or time is a
table that has none of its fields. -/
instance : Record.Source Value where
  parts
    | .table entries => .named (entries.map fun e => (some e.1, e.2)) none
    | .array items => .listed items none
    | .dateTime => .named [] none
    | _ => .neither .mismatch
  skipFault _ := none
  surplus := none
  isAbsent _ := .ok false
  flag
    | .flag b => .ok b
    | _ => .error .mismatch
  text
    | .text s => .ok s
    | _ => .error .mismatch
  natural
    | .integer i => if 0 ≤ i then .ok i.toNat else .error .mismatch
    | _ => .error .mismatch

end Toml
end CodeSurvey
