import CodeSurvey.Json.Number

/-!
# JSON values

A value is a tree.  The members of an object are kept as a list: records list them
in the order of their declaration, and a free-form object keeps them sorted by key,
each key once, so that equal objects are equal lists.
-/

namespace CodeSurvey
namespace Json

inductive Value where
  | null
  | flag (value : Bool)
  | number (value : Number)
  | text (value : String)
  | array (items : List Value)
  | object (members : List (String × Value))
deriving BEq, Repr

namespace Value

def int (i : Int) : Value :=
  .number (.integer i)

def nat (n : Nat) : Value :=
  .number (.integer n)

/-- An absent value is written as `null`. -/
def option (encode : a -> Value) : Option a -> Value
  | none => .null
  | some x => encode x

def list (encode : a -> Value) (xs : List a) : Value :=
  .array (xs.map encode)

def member? (key : String) : Value -> Option Value
  | .object members => members.lookup key
  | _ => none

def text? : Value -> Option String
  | .text s => some s
  | _ => none

/-- Put a member in its place among members sorted by key; a later value for the
same key replaces the earlier one. -/
def insertMember (key : String) (value : Value) :
    List (String × Value) -> List (String × Value)
  | [] => [(key, value)]
  | (k, v) :: rest =>
      if key < k then (key, value) :: (k, v) :: rest
      else if key = k then (key, value) :: rest
      else (k, v) :: insertMember key value rest

/-- Members in the order of their keys, the last value of every key kept. -/
def sortMembers (members : List (String × Value)) : List (String × Value) :=
  members.foldl (fun sorted m => insertMember m.1 m.2 sorted) []

end Value
end Json
end CodeSurvey
