/-!
# Module paths

A module is known by its path.  Two spellings that differ only in the kind of their
slashes or in slashes at the end name the same module, so every path is brought to
one normal form before it is used.
-/

namespace CodeSurvey
namespace Graph
namespace Path

def forward (c : Char) : Char :=
  if c = '\\' then '/' else c

/-- Drop the slashes at the end, but keep one of a path of slashes. -/
def trimEnd (cs : List Char) : List Char :=
  match (cs.reverse.dropWhile (· = '/')).reverse, cs with
  | [], _ :: _ => ['/']
  | kept, _ => kept

def normalizeChars (cs : List Char) : List Char :=
  trimEnd (cs.map forward)

/-- The normal form of a path: forward slashes, and none at the end. -/
def normalize (path : String) : String :=
  String.ofList (normalizeChars path.toList)

def segments : List Char -> List (List Char)
  | [] => [[]]
  | c :: cs =>
      if c = '/' then [] :: segments cs
      else match segments cs with
        | part :: parts => (c :: part) :: parts
        | [] => [[c]]

/-- Whether a path leads through a directory of installed packages. -/
def isInstalled (path : String) : Bool :=
  (segments path.toList).any fun part => part = "node_modules".toList

end Path
end Graph
end CodeSurvey
