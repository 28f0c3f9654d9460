import CodeSurvey.Files.Path
import Mathlib.Data.List.TakeWhile

/-!
# The way upward

The path above another one is found in the text alone.  Its steps are those of the path
without the last one, whatever slashes and single dots stand between them.
-/

namespace CodeSurvey
namespace Files
namespace Path

/-- The steps of a path that lead to another place; a single dot does not. -/
def steps (cs : List Char) : List String :=
  (named.go [] cs).filter fun part => part ≠ "" && part ≠ "."

theorem go_append_slash (reversed xs ys : List Char) :
    named.go reversed (xs ++ '/' :: ys) = named.go reversed xs ++ named.go [] ys := by
  induction xs generalizing reversed with
  | nil => rfl
  | cons c xs ih =>
      rw [List.cons_append, named.go, named.go]
      split
      · rw [ih, List.cons_append]
      · exact ih (c :: reversed)

theorem go_of_not_mem {xs : List Char} (h : '/' ∉ xs) (reversed : List Char) :
    named.go reversed xs = [String.ofList (reversed.reverse ++ xs)] := by
  induction xs generalizing reversed with
  | nil => rw [named.go, List.append_nil]
  | cons c xs ih =>
      have hc : c ≠ '/' := fun heq => h (heq ▸ List.mem_cons_self)
      rw [named.go, if_neg hc, ih fun hmem => h (List.mem_cons_of_mem c hmem)]
      rw [List.reverse_cons, List.append_assoc, List.singleton_append]

theorem steps_append_slash (xs ys : List Char) :
    steps (xs ++ '/' :: ys) = steps xs ++ steps ys := by
  rw [steps, go_append_slash, List.filter_append]
  rfl

theorem steps_nil : steps [] = [] := by
  decide

theorem steps_dot : steps ['.'] = [] := by
  decide

theorem steps_of_not_mem {xs : List Char} (h : '/' ∉ xs) (hne : xs ≠ []) (hdot : xs ≠ ['.']) :
    steps xs = [String.ofList xs] := by
  rw [steps, go_of_not_mem h, List.reverse_nil, List.nil_append]
  apply List.filter_eq_self.mpr
  intro part hpart
  have hone : String.ofList xs ≠ "." := fun heq => hdot (String.ofList_injective heq)
  have hsome : String.ofList xs ≠ "" := fun heq => hne (String.ofList_injective heq)
  rw [List.mem_singleton.mp hpart, Bool.and_eq_true, decide_eq_true_iff, decide_eq_true_iff]
  exact ⟨hsome, hone⟩

/-!
# The end of a path

It is read from the back: the slashes and single dots behind the last step are dropped, then
the step itself.
-/

theorem trimBack_suffix (cs : List Char) : trimBack cs <:+ cs := by
  fun_induction trimBack cs with
  | case1 rest ih => exact ih.trans (List.suffix_cons '/' rest)
  | case2 rest ih => exact ih.trans ((List.suffix_cons '/' rest).trans (List.suffix_cons '.' _))
  | case3 => exact List.nil_suffix
  | case4 => exact List.suffix_rfl

theorem steps_reverse_trimBack (cs : List Char) :
    steps (trimBack cs).reverse = steps cs.reverse := by
  fun_induction trimBack cs with
  | case1 rest ih =>
      rw [ih, List.reverse_cons, steps_append_slash, steps_nil, List.append_nil]
  | case2 rest ih =>
      rw [ih, List.reverse_cons, List.reverse_cons, List.append_assoc, List.singleton_append,
        steps_append_slash, steps_dot, List.append_nil]
  | case3 => exact steps_nil.trans steps_dot.symm
  | case4 => rfl

theorem trimBack_ne_dot (cs : List Char) : trimBack cs ≠ ['.'] := by
  fun_induction trimBack cs with
  | case1 rest ih => exact ih
  | case2 rest ih => exact ih
  | case3 => exact (List.cons_ne_nil _ _).symm
  | case4 cs hslash hboth hdot => exact hdot

theorem trimBack_ne_dot_cons (cs rest : List Char) : trimBack cs ≠ '.' :: '/' :: rest := by
  fun_induction trimBack cs with
  | case1 _ ih => exact ih
  | case2 _ ih => exact ih
  | case3 => exact (List.cons_ne_nil _ _).symm
  | case4 cs hslash hboth hdot => exact hboth rest

theorem slash_not_mem_takeWhile (cs : List Char) : '/' ∉ cs.takeWhile (· ≠ '/') := by
  intro hmem
  have hkept := List.mem_takeWhile_imp hmem
  simp at hkept

theorem eq_slash_of_dropWhile {cs rest : List Char} {c : Char}
    (h : cs.dropWhile (· ≠ '/') = c :: rest) : c = '/' := by
  have hstop := List.head?_dropWhile_not (· ≠ '/') cs
  rw [h] at hstop
  simpa using hstop

theorem takeWhile_trimBack_ne_nil {cs : List Char} (hne : trimBack cs ≠ []) :
    (trimBack cs).takeWhile (· ≠ '/') ≠ [] := by
  cases hback : trimBack cs with
  | nil => exact absurd hback hne
  | cons c rest =>
      have hc : c ≠ '/' := fun heq => head_trimBack cs rest (heq ▸ hback)
      rw [List.takeWhile_cons_of_pos (by simpa using hc)]
      exact List.cons_ne_nil c _

theorem takeWhile_trimBack_ne_dot (cs : List Char) :
    (trimBack cs).takeWhile (· ≠ '/') ≠ ['.'] := by
  intro hdot
  have hsplit := List.takeWhile_append_dropWhile (p := (· ≠ '/')) (l := trimBack cs)
  rw [hdot] at hsplit
  cases hrest : (trimBack cs).dropWhile (· ≠ '/') with
  | nil =>
      rw [hrest] at hsplit
      exact trimBack_ne_dot cs hsplit.symm
  | cons c rest =>
      rw [hrest, eq_slash_of_dropWhile hrest] at hsplit
      exact trimBack_ne_dot_cons cs rest hsplit.symm

theorem steps_reverse_eq_append (cs : List Char) :
    steps cs.reverse = steps (cs.dropWhile (· ≠ '/')).reverse ++
      steps (cs.takeWhile (· ≠ '/')).reverse := by
  have hsplit := List.takeWhile_append_dropWhile (p := (· ≠ '/')) (l := cs)
  cases hrest : cs.dropWhile (· ≠ '/') with
  | nil =>
      rw [hrest, List.append_nil] at hsplit
      rw [hsplit, List.reverse_nil, steps_nil, List.nil_append]
  | cons c rest =>
      rw [hrest, eq_slash_of_dropWhile hrest] at hsplit
      rw [← hsplit, List.reverse_append, eq_slash_of_dropWhile hrest, List.reverse_cons,
        List.append_assoc, List.singleton_append, steps_append_slash, steps_append_slash,
        steps_nil, List.append_nil, hsplit]

theorem exists_steps_eq_concat {cs : List Char} (hne : trimBack cs ≠ []) :
    exists step, steps (trimBack cs).reverse =
      steps ((trimBack cs).dropWhile (· ≠ '/')).reverse ++ [step] := by
  have hslash : '/' ∉ ((trimBack cs).takeWhile (· ≠ '/')).reverse :=
    mt List.mem_reverse.mp (slash_not_mem_takeWhile _)
  have hempty : ((trimBack cs).takeWhile (· ≠ '/')).reverse ≠ [] :=
    mt List.reverse_eq_nil_iff.mp (takeWhile_trimBack_ne_nil hne)
  have hdot : ((trimBack cs).takeWhile (· ≠ '/')).reverse ≠ ['.'] :=
    mt List.reverse_eq_iff.mp (takeWhile_trimBack_ne_dot cs)
  rw [steps_reverse_eq_append (trimBack cs), steps_of_not_mem hslash hempty hdot]
  exact ⟨_, rfl⟩

/-!
# The path above
-/

theorem steps_head_append {cs xs : List Char} (h : xs <+: cs.drop (headLength cs)) :
    steps (cs.take (headLength cs) ++ xs) = steps xs := by
  have hslash (ys : List Char) : steps ('/' :: ys) = steps ys := by
    rw [← List.nil_append ('/' :: ys), steps_append_slash, steps_nil, List.nil_append]
  unfold headLength at *
  split at *
  next => exact hslash xs
  next =>
    cases List.prefix_nil.mp h
    exact steps_dot.trans steps_nil.symm
  next rest =>
    cases xs with
    | nil => exact steps_dot.trans steps_nil.symm
    | cons c xs =>
        cases (List.cons_prefix_cons.mp h).1
        show steps (['.'] ++ '/' :: xs) = _
        rw [steps_append_slash, steps_dot, hslash, List.nil_append]
  next => rfl

theorem steps_eq_trimBack (cs : List Char) :
    steps cs = steps (trimBack (cs.drop (headLength cs)).reverse).reverse := by
  rw [steps_reverse_trimBack, List.reverse_reverse, ← steps_head_append List.prefix_rfl,
    List.take_append_drop]

theorem steps_of_parentChars?_eq_none {cs : List Char} (h : parentChars? cs = none) :
    steps cs = [] := by
  simp only [parentChars?] at h
  split at h
  next hback => rw [steps_eq_trimBack, hback, List.reverse_nil, steps_nil]
  next => cases h

/-- The path above is a beginning of the text, and it has all steps but the last one. -/
theorem parentChars?_spec {cs ps : List Char} (h : parentChars? cs = some ps) :
    ps <+: cs ∧ steps ps = (steps cs).dropLast := by
  rw [steps_eq_trimBack cs]
  simp only [parentChars?] at h
  split at h
  next hback =>
    split at h
    next =>
      cases h
      rw [hback, List.reverse_nil, steps_nil]
      exact ⟨List.nil_prefix, rfl⟩
    next => cases h
  next hne =>
    cases h
    have hrest := (trimBack_suffix _).trans ((List.dropWhile_suffix (· ≠ '/')).trans
      (trimBack_suffix (cs.drop (headLength cs)).reverse))
    have hstart := List.reverse_prefix.mpr hrest
    rw [List.reverse_reverse] at hstart
    constructor
    · have happend := (List.prefix_append_right_inj (cs.take (headLength cs))).mpr hstart
      rwa [List.take_append_drop] at happend
    · rcases exists_steps_eq_concat hne with ⟨step, hstep⟩
      rw [hstep, List.dropLast_concat, steps_head_append hstart, steps_reverse_trimBack]

/-!
# All paths above
-/

theorem parent?_spec {path above : String} (h : parent? path = some above) :
    above.toList <+: path.toList ∧ steps above.toList = (steps path.toList).dropLast := by
  rcases Option.map_eq_some_iff.mp h with ⟨chars, hparent, rfl⟩
  rw [String.toList_ofList]
  exact parentChars?_spec hparent

theorem steps_of_parent?_eq_none {path : String} (h : parent? path = none) :
    steps path.toList = [] :=
  steps_of_parentChars?_eq_none (Option.map_eq_none_iff.mp h)

theorem ancestors_of_parent?_eq_none {path : String} (h : parent? path = none) :
    ancestors path = [path] := by
  unfold ancestors ancestorsChars
  split
  next => rw [List.map_singleton, String.ofList_toList]
  next chars hparent => cases (Option.map_eq_none_iff.mp h).symm.trans hparent

theorem ancestors_of_parent? {path above : String} (h : parent? path = some above) :
    ancestors path = path :: ancestors above := by
  rcases Option.map_eq_some_iff.mp h with ⟨chars, hparent, rfl⟩
  unfold ancestors
  rw [String.toList_ofList, ancestorsChars]
  split
  next hnone => cases hnone.symm.trans hparent
  next above habove =>
    cases habove.symm.trans hparent
    rw [List.map_cons, String.ofList_toList]

theorem exists_ancestors_eq_cons (path : String) : exists rest, ancestors path = path :: rest := by
  cases h : parent? path with
  | none => exact ⟨[], ancestors_of_parent?_eq_none h⟩
  | some above => exact ⟨ancestors above, ancestors_of_parent? h⟩

/-- What holds at the top, and of a path when it holds of the path above, holds of all paths. -/
theorem parent?_induction {motive : String -> Prop}
    (top : forall path, parent? path = none -> motive path)
    (below : forall path above, parent? path = some above -> motive above -> motive path)
    (path : String) : motive path := by
  cases h : parent? path with
  | none => exact top path h
  | some above => exact below path above h (parent?_induction top below above)
termination_by path.toList.length
decreasing_by
  rcases Option.map_eq_some_iff.mp h with ⟨chars, hparent, rfl⟩
  rw [String.toList_ofList]
  exact length_parentChars?_lt hparent

end Path
end Files
end CodeSurvey
