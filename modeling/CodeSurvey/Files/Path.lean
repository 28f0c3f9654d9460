/-!
# Paths as text

Operations on the text of a path, which look at no file.  Slashes that stand together
count once, slashes at the end do not count, and a single dot counts only at the very
start.
-/

namespace CodeSurvey
namespace Files
namespace Path

/-- Drop, from the end of a reversed path, slashes and parts that are a single dot. -/
def trimBack : List Char -> List Char
  | '/' :: rest => trimBack rest
  | '.' :: '/' :: rest => trimBack rest
  | ['.'] => []
  | cs => cs

/-- A leading slash, or a single dot as the first part, is never trimmed away. -/
def headLength : List Char -> Nat
  | '/' :: _ => 1
  | ['.'] => 1
  | '.' :: '/' :: _ => 1
  | _ => 0

def parentChars? (cs : List Char) : Option (List Char) :=
  let head := cs.take (headLength cs)
  match trimBack (cs.drop (headLength cs)).reverse with
  | [] => if head = ['.'] then some [] else none
  | back => some (head ++ (trimBack (back.dropWhile (· ≠ '/'))).reverse)

theorem length_trimBack_le (cs : List Char) : (trimBack cs).length ≤ cs.length := by
  fun_induction trimBack cs <;> simp_all <;> omega

theorem head_trimBack (cs rest : List Char) : trimBack cs ≠ '/' :: rest := by
  fun_induction trimBack cs with
  | case1 _ ih => exact ih
  | case2 _ ih => exact ih
  | case3 => simp
  | case4 cs hslash _ _ => exact fun h => hslash rest h

theorem length_dropWhile_lt {back : List Char} (hne : back ≠ [])
    (hslash : forall rest, back ≠ '/' :: rest) :
    (back.dropWhile (· ≠ '/')).length < back.length := by
  cases back with
  | nil => exact absurd rfl hne
  | cons c rest =>
      have hc : c ≠ '/' := fun h => hslash rest (by rw [h])
      have hle := (List.dropWhile_sublist (l := rest) (· ≠ '/')).length_le
      simp only [List.dropWhile_cons, ne_eq, hc, not_false_eq_true, decide_true, if_true,
        List.length_cons]
      simp only [ne_eq] at hle
      omega

theorem length_parentChars?_lt {cs ps : List Char} (h : parentChars? cs = some ps) :
    ps.length < cs.length := by
  have hsum : (cs.take (headLength cs)).length + (cs.drop (headLength cs)).length = cs.length := by
    rw [← List.length_append, List.take_append_drop]
  have hback := length_trimBack_le (cs.drop (headLength cs)).reverse
  rw [List.length_reverse] at hback
  simp only [parentChars?] at h
  split at h
  · split at h
    · rename_i hdot
      have hone := congrArg List.length hdot
      rw [← Option.some.inj h]
      simp only [List.length_cons, List.length_nil] at hone ⊢
      omega
    · simp at h
  · rename_i hne
    have hlt := length_dropWhile_lt hne (head_trimBack (cs.drop (headLength cs)).reverse)
    have hle := length_trimBack_le
      ((trimBack (cs.drop (headLength cs)).reverse).dropWhile (· ≠ '/'))
    rw [← Option.some.inj h, List.length_append, List.length_reverse]
    omega

def ancestorsChars (cs : List Char) : List (List Char) :=
  match _h : parentChars? cs with
  | none => [cs]
  | some ps => cs :: ancestorsChars ps
termination_by cs.length
decreasing_by exact length_parentChars?_lt _h

def parent? (path : String) : Option String :=
  (parentChars? path.toList).map String.ofList

def ancestors (path : String) : List String :=
  (ancestorsChars path.toList).map String.ofList

def join (directory name : String) : String :=
  match directory.toList.getLast? with
  | none => name
  | some c => if c = '/' then directory ++ name else directory ++ "/" ++ name

def fileName? (path : String) : Option (List Char) :=
  let cs := path.toList
  let back := trimBack (cs.drop (headLength cs)).reverse
  let name := (back.takeWhile (· ≠ '/')).reverse
  if name = [] ∨ name = ['.', '.'] then none else some name

/-- What follows the last dot of the last part, unless the dot is its first character. -/
def extension? (path : String) : Option String := do
  let name ← fileName? path
  let back := name.reverse
  let suffix := back.takeWhile (· ≠ '.')
  if suffix.length + 1 < name.length then some (String.ofList suffix.reverse) else none

def named (path : String) : List String :=
  (go [] path.toList).filter fun part => part ≠ ""
where
  go (reversed : List Char) : List Char -> List String
    | [] => [String.ofList reversed.reverse]
    | c :: cs =>
        if c = '/' then String.ofList reversed.reverse :: go [] cs else go (c :: reversed) cs

/-- The steps along a path: its names, and for a slash at the end one that stays where
it is. -/
def parts (path : String) : List String :=
  if path.toList.getLast? = some '/' then named path ++ ["."] else named path

end Path
end Files
end CodeSurvey
