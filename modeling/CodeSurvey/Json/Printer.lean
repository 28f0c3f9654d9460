import CodeSurvey.Json.Value
import CodeSurvey.Json.Escape

/-!
# Writing JSON

The compact form has no blanks.  The pretty form puts every item and member on a
line of its own, two spaces deeper than the bracket around it, and a space behind
the colon; an empty array or object stays on one line.
-/

namespace CodeSurvey
namespace Json
namespace Value

mutual

def compactChars : Value -> List Char
  | .null => ['n', 'u', 'l', 'l']
  | .flag true => ['t', 'r', 'u', 'e']
  | .flag false => ['f', 'a', 'l', 's', 'e']
  | .number n => n.chars
  | .text s => Escape.quoted s.toList
  | .array [] => ['[', ']']
  | .array (v :: vs) => '[' :: (compactChars v ++ compactItems vs)
  | .object [] => ['\x7b', '\x7d']
  | .object (m :: ms) => '\x7b' :: (compactMember m ++ compactMembers ms)

/-- The items behind the first one, each behind a comma, and the closing bracket. -/
def compactItems : List Value -> List Char
  | [] => [']']
  | v :: vs => ',' :: (compactChars v ++ compactItems vs)

def compactMember : String × Value -> List Char
  | (key, v) => Escape.quoted key.toList ++ ':' :: compactChars v

def compactMembers : List (String × Value) -> List Char
  | [] => ['\x7d']
  | m :: ms => ',' :: (compactMember m ++ compactMembers ms)

end

def compact (v : Value) : String :=
  String.ofList v.compactChars

/-- A line break and the indentation of the given depth. -/
def newLine (depth : Nat) : List Char :=
  '\n' :: List.replicate (2 * depth) ' '

mutual

def prettyChars (depth : Nat) : Value -> List Char
  | .null => ['n', 'u', 'l', 'l']
  | .flag true => ['t', 'r', 'u', 'e']
  | .flag false => ['f', 'a', 'l', 's', 'e']
  | .number n => n.chars
  | .text s => Escape.quoted s.toList
  | .array [] => ['[', ']']
  | .array (v :: vs) =>
      '[' :: newLine (depth + 1) ++ prettyChars (depth + 1) v ++ prettyItems depth vs
  | .object [] => ['\x7b', '\x7d']
  | .object (m :: ms) =>
      '\x7b' :: newLine (depth + 1) ++ prettyMember (depth + 1) m ++ prettyMembers depth ms

def prettyItems (depth : Nat) : List Value -> List Char
  | [] => newLine depth ++ [']']
  | v :: vs => ',' :: newLine (depth + 1) ++ prettyChars (depth + 1) v ++ prettyItems depth vs

def prettyMember (depth : Nat) : String × Value -> List Char
  | (key, v) => Escape.quoted key.toList ++ ':' :: ' ' :: prettyChars depth v

def prettyMembers (depth : Nat) : List (String × Value) -> List Char
  | [] => newLine depth ++ ['\x7d']
  | m :: ms =>
      ',' :: newLine (depth + 1) ++ prettyMember (depth + 1) m ++ prettyMembers depth ms

end

def pretty (v : Value) : String :=
  String.ofList (v.prettyChars 0)

end Value
end Json
end CodeSurvey
