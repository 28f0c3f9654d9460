/-!
# Slices by bytes

A part of a text between two positions.  Positions count the bytes of the text in
UTF-8; a position inside a character bounds no slice.
-/

namespace CodeSurvey
namespace Text
namespace Slice

def drop? : Nat -> List Char -> Option (List Char)
  | 0, cs => some cs
  | _ + 1, [] => none
  | n + 1, c :: cs => if c.utf8Size ≤ n + 1 then drop? (n + 1 - c.utf8Size) cs else none

def take? : Nat -> List Char -> Option (List Char)
  | 0, _ => some []
  | _ + 1, [] => none
  | n + 1, c :: cs =>
      if c.utf8Size ≤ n + 1 then (take? (n + 1 - c.utf8Size) cs).map (c :: ·) else none

/-- What stands from one position on, up to another one if it is given. -/
def between? (cs : List Char) (start : Nat) (stop : Option Nat) : Option String := do
  let rest ← drop? start cs
  match stop with
  | some stop => (take? (stop - start) rest).map String.ofList
  | none => some (String.ofList rest)

/-- The characters of a text, each with its position. -/
def positions (start : Nat) : List Char -> List (Nat × Char)
  | [] => []
  | c :: cs => (start, c) :: positions (start + c.utf8Size) cs

end Slice
end Text
end CodeSurvey
