import CodeSurvey.Files.Tree
import CodeSurvey.Proofs.Steps

/-!
# What is written to a file is read from it

A new file hides nothing that was on the way to it, since it never takes the place of a
directory.
-/

namespace CodeSurvey
namespace Files

namespace Tree

/-- Following the parts of a path from a place leads to another place. -/
inductive Way (t : Tree) : List String -> List String -> List String -> Prop where
  | here : Way t place [] place
  | dot (hdirectory : t.isDirectoryAt place = true) (h : Way t place parts found) :
      Way t place ("." :: parts) found
  | back (hdirectory : t.isDirectoryAt place = true) (hplace : place ≠ [])
      (h : Way t place.dropLast parts found) : Way t place (".." :: parts) found
  | name (hdirectory : t.isDirectoryAt place = true) (hdots : part ≠ "." ∧ part ≠ "..")
      (hshort : part.utf8ByteSize ≤ longestName)
      (hsome : (t.entry? (place ++ [part])).isSome = true)
      (h : Way t (place ++ [part]) parts found) : Way t place (part :: parts) found

/-!
# Places after a file is put
-/

variable {t : Tree} {place target : List String} {content : ByteArray}

theorem entry_put_self (t : Tree) (e : Entry) (h : target ≠ []) :
    Tree.entry? (t.put target e) target = some e := by
  cases target with
  | nil => exact absurd rfl h
  | cons name names => exact List.lookup_cons_self

theorem lookup_filter_ne (entries : List (List String × Entry)) (h : place ≠ target) :
    (entries.filter fun old => old.1 ≠ target).lookup place = entries.lookup place := by
  induction entries with
  | nil => rfl
  | cons old entries ih =>
      rcases old with ⟨other, e⟩
      by_cases heq : other = target
      · have hne : (place == other) = false := beq_false_of_ne (heq ▸ h)
        rw [List.filter_cons_of_neg (by simp [heq]), ih, List.lookup_cons, hne]
      · rw [List.filter_cons_of_pos (by simp [heq]), List.lookup_cons, List.lookup_cons, ih]

theorem entry_put_of_ne (t : Tree) (e : Entry) (h : place ≠ target) :
    Tree.entry? (t.put target e) place = t.entry? place := by
  cases place with
  | nil => rfl
  | cons name names =>
      have hne : ((name :: names) == target) = false := beq_false_of_ne h
      show ((target, e) :: t.entries.filter fun old => old.1 ≠ target).lookup (name :: names) = _
      rw [List.lookup_cons, hne]
      exact lookup_filter_ne t.entries h

theorem isDirectoryAt_put (htarget : t.isDirectoryAt target = false) (e : Entry)
    (h : t.isDirectoryAt place = true) : (t.put target e).isDirectoryAt place = true := by
  have hne : place ≠ target := by
    rintro rfl
    rw [h] at htarget
    cases htarget
  unfold isDirectoryAt at *
  rw [entry_put_of_ne t e hne]
  exact h

theorem isSome_entry_put (e : Entry) (h : (t.entry? place).isSome = true) :
    (Tree.entry? (t.put target e) place).isSome = true := by
  by_cases heq : place = target
  · subst heq
    cases place with
    | nil => rfl
    | cons name names => rw [entry_put_self t e (by simp)]; rfl
  · rw [entry_put_of_ne t e heq]
    exact h

/-!
# Ways through the tree
-/

theorem way_of_follow {found parts : List String} :
    t.follow place parts = .ok found -> Way t place parts found := by
  fun_induction follow t place parts with
  | case1 place => rintro ⟨⟩; exact Way.here
  | case2 place part parts hdirectory => nofun
  | case3 place parts hdirectory ih =>
      exact fun h => Way.dot (by simpa using hdirectory) (ih h)
  | case4 place parts hdirectory hempty => nofun
  | case5 place parts hdirectory hplace hdot ih =>
      exact fun h => Way.back (by simpa using hdirectory) (by simpa using hplace) (ih h)
  | case6 place part parts hdirectory hdot hback hlong => nofun
  | case7 place part parts hdirectory hdot hback hshort next hsome ih =>
      exact fun h => Way.name (by simpa using hdirectory) ⟨hdot, hback⟩ (Nat.le_of_not_lt hshort)
        hsome (ih h)
  | case8 place part parts hdirectory hdot hback hshort next hnone => nofun

theorem Way.follow {found parts : List String} (h : Way t place parts found) :
    t.follow place parts = .ok found := by
  induction h with
  | here => rfl
  | dot hdirectory _ ih =>
      unfold Tree.follow
      simp [hdirectory, ih]
  | back hdirectory hplace _ ih =>
      unfold Tree.follow
      simp [hdirectory, hplace, ih]
  | name hdirectory hdots hshort hsome _ ih =>
      unfold Tree.follow
      simp [hdirectory, hdots.1, hdots.2, Nat.not_lt.mpr hshort, hsome, ih]

theorem Way.put {found parts : List String} (h : Way t place parts found)
    (htarget : t.isDirectoryAt target = false) (e : Entry) :
    Way (t.put target e) place parts found := by
  induction h with
  | here => exact Way.here
  | dot hdirectory _ ih => exact Way.dot (isDirectoryAt_put htarget e hdirectory) ih
  | back hdirectory hplace _ ih =>
      exact Way.back (isDirectoryAt_put htarget e hdirectory) hplace ih
  | name hdirectory hdots hshort hsome _ ih =>
      exact Way.name (isDirectoryAt_put htarget e hdirectory) hdots hshort
        (isSome_entry_put e hsome) ih

theorem Way.append {middle found parts more : List String} (h : Way t place parts middle)
    (h' : Way t middle more found) : Way t place (parts ++ more) found := by
  induction h with
  | here => exact h'
  | dot hdirectory _ ih => exact Way.dot hdirectory (ih h')
  | back hdirectory hplace _ ih => exact Way.back hdirectory hplace (ih h')
  | name hdirectory hdots hshort hsome _ ih =>
      exact Way.name hdirectory hdots hshort hsome (ih h')

/-!
# Writing and reading
-/

theorem parts_eq_named {path : String} (h : path.endsWith "/" = false) :
    Path.parts path = Path.named path := by
  unfold Path.parts
  rw [if_neg]
  intro hlast
  rcases List.getLast?_eq_some_iff.mp hlast with ⟨front, hfront⟩
  have hsuffix : "/".toList <:+ path.toSlice.copy.toList := by
    rw [String.copy_toSlice]
    exact ⟨front, hfront.symm⟩
  have hends := String.Slice.endsWith_string_iff.mpr hsuffix
  rw [String.endsWith_eq_endsWith_toSlice, hends] at h
  cases h

theorem exists_of_lastPart {path part : String} (h : t.lastPart path = .ok (place, part)) :
    checkPath path = .ok () ∧ Way t [] (Path.named path).dropLast place ∧
      t.isDirectoryAt place = true ∧ part = (Path.named path).getLastD "." := by
  rcases bind_eq_ok_iff.mp h with ⟨_, hcheck, h⟩
  rcases bind_eq_ok_iff.mp h with ⟨found, hfollow, h⟩
  split at h
  next hdirectory =>
    cases h
    exact ⟨hcheck, way_of_follow hfollow, hdirectory, rfl⟩
  next => cases h

theorem exists_of_write {path : String} {t' : Tree} (h : t.write path content = .ok t') :
    exists place part, t.lastPart path = .ok (place, part) ∧ path.endsWith "/" = false ∧
      (part ≠ "." ∧ part ≠ "..") ∧ part.utf8ByteSize ≤ longestName ∧
      t.isDirectoryAt (place ++ [part]) = false ∧
      t' = t.put (place ++ [part]) (.file content) := by
  rcases bind_eq_ok_iff.mp h with ⟨⟨place, part⟩, hlast, h⟩
  simp only at h
  split at h
  next => cases h
  next hname =>
    split at h
    next => cases h
    next hshort =>
      split at h
      next => cases h
      next htarget =>
        cases h
        simp only [Bool.or_eq_true, decide_eq_true_iff, not_or] at hname
        rcases hname with ⟨⟨hslash, hdot⟩, hback⟩
        exact ⟨place, part, hlast, eq_false_of_ne_true hslash, ⟨hdot, hback⟩,
          Nat.le_of_not_lt hshort, eq_false_of_ne_true htarget, rfl⟩

theorem parts_eq_concat {path part : String} (hslash : path.endsWith "/" = false)
    (hpart : part = (Path.named path).getLastD ".") (hdot : part ≠ ".") :
    Path.parts path = (Path.named path).dropLast ++ [part] := by
  rw [parts_eq_named hslash]
  cases hnamed : Path.named path with
  | nil =>
      rw [hnamed] at hpart
      exact absurd hpart hdot
  | cons name names =>
      have hlast : part = (name :: names).getLast (by simp) := by
        rw [hpart, hnamed, List.getLastD_eq_getLast?, List.getLast?_eq_some_getLast]
        rfl
      rw [hlast, List.dropLast_concat_getLast]

theorem readBytes_of_write {path : String} {t' : Tree} (h : t.write path content = .ok t') :
    t'.readBytes path = .ok content := by
  rcases exists_of_write h with ⟨place, part, hlast, hslash, hdots, hshort, htarget, rfl⟩
  rcases exists_of_lastPart hlast with ⟨hcheck, hway, hdirectory, hpart⟩
  have hput : Tree.entry? (t.put (place ++ [part]) (.file content)) (place ++ [part]) =
      some (.file content) := entry_put_self t _ (by simp)
  have hlast : Way (t.put (place ++ [part]) (.file content)) place [part] (place ++ [part]) := by
    apply Way.name (isDirectoryAt_put htarget _ hdirectory) hdots hshort _ Way.here
    rw [hput]
    rfl
  -- The directory is reached as before the file was put, since that is no directory.
  have hfollow := ((hway.put htarget (.file content)).append hlast).follow
  rw [← parts_eq_concat hslash hpart hdots.1] at hfollow
  apply bind_eq_ok_iff.mpr
  refine ⟨_, bind_eq_ok_iff.mpr ⟨(), hcheck, hfollow⟩, ?_⟩
  rw [hput]
  rfl

/-- A text that could be written is read from its file. -/
theorem readText_of_writeBelow {path : String} {s : String} {t' : Tree}
    (h : t.writeBelow path s.toUTF8 = (t', none)) : t'.readText path = .ok s := by
  have hwrite : exists made : Tree, made.write path s.toUTF8 = .ok t' := by
    unfold writeBelow at h
    simp only at h
    split at h
    next => cases h
    next =>
      split at h
      next hwritten =>
        cases h
        exact ⟨_, hwritten⟩
      next => cases h
  rcases hwrite with ⟨made, hwrite⟩
  have hutf8 : String.fromUTF8? s.toUTF8 = some s := dif_pos s.isValidUTF8
  apply bind_eq_ok_iff.mpr
  refine ⟨_, readBytes_of_write hwrite, ?_⟩
  rw [hutf8]
  rfl

end Tree
end Files
end CodeSurvey
