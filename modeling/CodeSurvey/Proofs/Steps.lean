import Mathlib.Data.List.Forall2

/-!
# Steps that may fail

What succeeds has gone through all of its steps.
-/

namespace CodeSurvey

variable {e f a b : Type}

theorem bind_eq_ok_iff {x : Except e a} {g : a -> Except e b} {y : b} :
    x >>= g = .ok y ↔ exists z, x = .ok z ∧ g z = .ok y := by
  cases x with
  | error fault =>
      constructor
      · rintro ⟨⟩
      · rintro ⟨_, ⟨⟩, _⟩
  | ok z =>
      constructor
      · exact fun h => ⟨z, rfl, h⟩
      · rintro ⟨_, ⟨⟩, h⟩
        exact h

theorem mapError_eq_ok_iff {x : Except e a} {g : e -> f} {y : a} :
    x.mapError g = .ok y ↔ x = .ok y := by
  cases x with
  | error fault => exact ⟨nofun, nofun⟩
  | ok z =>
      constructor
      · rintro ⟨⟩
        rfl
      · rintro ⟨⟩
        rfl

theorem map_eq_ok_iff {x : Except e a} {g : a -> b} {y : b} :
    x.map g = .ok y ↔ exists z, x = .ok z ∧ g z = y := by
  cases x with
  | error fault =>
      constructor
      · rintro ⟨⟩
      · rintro ⟨_, ⟨⟩, _⟩
  | ok z =>
      constructor
      · rintro ⟨⟩
        exact ⟨z, rfl, rfl⟩
      · rintro ⟨_, ⟨⟩, rfl⟩
        rfl

/-!
# Lists of steps
-/

theorem mapM_eq_ok_iff {r : a -> Except e b} {xs : List a} {ys : List b} :
    xs.mapM r = .ok ys ↔ List.Forall₂ (fun x y => r x = .ok y) xs ys := by
  induction xs generalizing ys with
  | nil =>
      rw [List.mapM_nil, List.forall₂_nil_left_iff]
      constructor
      · rintro ⟨⟩
        rfl
      · rintro rfl
        rfl
  | cons x xs ih =>
      rw [List.mapM_cons, List.forall₂_cons_left_iff]
      constructor
      · intro h
        rcases bind_eq_ok_iff.mp h with ⟨y, hx, h⟩
        rcases bind_eq_ok_iff.mp h with ⟨zs, hxs, h⟩
        cases h
        exact ⟨y, zs, hx, ih.mp hxs, rfl⟩
      · rintro ⟨y, zs, hx, hxs, rfl⟩
        exact bind_eq_ok_iff.mpr ⟨y, hx, bind_eq_ok_iff.mpr ⟨zs, ih.mpr hxs, rfl⟩⟩

variable {R : a -> b -> Prop}

theorem exists_of_forall₂ {xs : List a} {ys : List b} (h : List.Forall₂ R xs ys) {y : b}
    (hy : y ∈ ys) : exists x, x ∈ xs ∧ R x y := by
  induction h with
  | nil => cases hy
  | @cons x _ xs _ hhead _ ih =>
      cases List.mem_cons.mp hy with
      | inl heq => exact ⟨x, List.mem_cons_self, heq ▸ hhead⟩
      | inr hmem =>
          rcases ih hmem with ⟨x', hx', hR⟩
          exact ⟨x', List.mem_cons_of_mem _ hx', hR⟩

theorem forall₂_replace {x x' : a} (hx : forall y, R x y -> R x' y) {before after : List a}
    {ys : List b} (h : List.Forall₂ R (before ++ x :: after) ys) :
    List.Forall₂ R (before ++ x' :: after) ys := by
  induction before generalizing ys with
  | nil =>
      rcases List.forall₂_cons_left_iff.mp h with ⟨y, zs, hhead, htail, rfl⟩
      exact .cons (hx y hhead) htail
  | cons w before ih =>
      rcases List.forall₂_cons_left_iff.mp h with ⟨y, zs, hhead, htail, rfl⟩
      exact .cons hhead (ih htail)

/-!
# What is left of a fault
-/

theorem toOption_bind (x : Except e a) (g : a -> Except e b) :
    (x >>= g).toOption = x.toOption.bind fun z => (g z).toOption := by
  cases x with
  | error fault => rfl
  | ok z => rfl

theorem toOption_mapError (x : Except e a) (g : e -> f) :
    (x.mapError g).toOption = x.toOption := by
  cases x with
  | error fault => rfl
  | ok z => rfl

end CodeSurvey
