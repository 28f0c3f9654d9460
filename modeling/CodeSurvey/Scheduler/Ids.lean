import CodeSurvey.Digest
import CodeSurvey.Scheduler.Task

/-!
# Task ids

A source of ids is a sequence of texts, of which some have been given out.
-/

namespace CodeSurvey
namespace Scheduler

structure IdSource where
  nth : Nat -> String
  issued : Nat

namespace IdSource

def next (s : IdSource) : TaskId × IdSource :=
  (⟨s.nth s.issued⟩, { s with issued := s.issued + 1 })

def take (s : IdSource) : Nat -> List TaskId
  | 0 => []
  | count + 1 => s.next.1 :: s.next.2.take count

/-- Numbers from 1 on, behind a common word. -/
def sequential (word : String) : IdSource :=
  { nth := fun n => word ++ "-" ++ Text.Decimal.natText (n + 1), issued := 0 }

def defaultWord : String := "task"

/-!
# Random ids

Ids in the form of version 4 UUIDs, with digits drawn from digests of a seed.
-/

/-- The digit at the place of the variant has its upper bits fixed. -/
def variantDigit (c : Char) : Char :=
  match c.toNat % 4 with
  | 0 => '8'
  | 1 => '9'
  | 2 => 'a'
  | _ => 'b'

/-- 32 digits grouped as a version 4 UUID. -/
def uuidChars (ds : List Char) : List Char :=
  let part := fun first count => (ds.drop first).take count
  part 0 8 ++ '-' :: part 8 4 ++ '-' :: '4' :: part 13 3 ++
    '-' :: (part 16 1).map variantDigit ++ part 17 3 ++ '-' :: part 20 12

def random (seed : String) : IdSource :=
  { nth := fun n =>
      String.ofList (uuidChars (Digest.ofText (seed ++ Text.Decimal.natText n)).toList)
    issued := 0 }

def isVersion4 (s : String) : Bool :=
  let cs := s.toList
  cs.length = 36 &&
    (cs.zip (List.range 36)).all fun (c, i) =>
      if i = 8 || i = 13 || i = 18 || i = 23 then c = '-'
      else if i = 14 then c = '4'
      else if i = 19 then c = '8' || c = '9' || c = 'a' || c = 'b'
      else ('0' ≤ c && c ≤ '9') || ('a' ≤ c && c ≤ 'f')

end IdSource
end Scheduler
end CodeSurvey
