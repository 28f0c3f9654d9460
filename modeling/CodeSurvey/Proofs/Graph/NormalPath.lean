import CodeSurvey.Graph.Path
import Mathlib.Data.List.DropRight

/-!
# Normal paths

A path in normal form has forward slashes only and none at its end, unless it is a
single slash.  Bringing such a path to its normal form leaves it as it is.  Two paths have
one normal form exactly when they differ in the kind of their slashes or in slashes at the
end only.
-/

namespace CodeSurvey
namespace Graph
namespace Path

/-!
# Slashes
-/

theorem forward_ne_backslash (c : Char) : forward c ≠ '\\' := by
  unfold forward
  split
  · decide
  · assumption

theorem forward_eq_self {c : Char} (h : c ≠ '\\') : forward c = c :=
  if_neg h

theorem map_forward_eq_self {cs : List Char} (h : '\\' ∉ cs) : cs.map forward = cs := by
  induction cs with
  | nil => rfl
  | cons c cs ih =>
      have hc : c ≠ '\\' := fun heq => h (heq ▸ List.mem_cons_self)
      have hcs : '\\' ∉ cs := fun hmem => h (List.mem_cons_of_mem c hmem)
      rw [List.map_cons, forward_eq_self hc, ih hcs]

theorem backslash_not_mem_map_forward (cs : List Char) : '\\' ∉ cs.map forward := by
  intro h
  rcases List.mem_map.mp h with ⟨c, _, hc⟩
  exact forward_ne_backslash c hc

/-!
# The end of a path
-/

theorem trimEnd_of_rdropWhile_ne_nil {cs : List Char}
    (h : cs.rdropWhile (· = '/') ≠ []) : trimEnd cs = cs.rdropWhile (· = '/') := by
  unfold trimEnd
  split
  · next c rest heq => exact absurd heq h
  · rfl

theorem trimEnd_eq (cs : List Char) :
    trimEnd cs = [] ∨ trimEnd cs = ['/'] ∨
      trimEnd cs = cs.rdropWhile (· = '/') ∧ trimEnd cs ≠ [] := by
  by_cases h : cs.rdropWhile (· = '/') = []
  · cases cs with
    | nil => exact Or.inl rfl
    | cons c cs =>
        apply Or.inr
        apply Or.inl
        unfold trimEnd
        split
        · rfl
        · next hne => exact absurd rfl (hne c cs h)
  · have heq := trimEnd_of_rdropWhile_ne_nil h
    exact Or.inr (Or.inr ⟨heq, heq ▸ h⟩)

theorem trimEnd_trimEnd (cs : List Char) : trimEnd (trimEnd cs) = trimEnd cs := by
  rcases trimEnd_eq cs with h | h | ⟨h, hne⟩
  · rw [h]
    rfl
  · rw [h]
    decide
  · have hself : (trimEnd cs).rdropWhile (· = '/') = trimEnd cs := by
      rw [h]
      exact List.rdropWhile_idempotent _ _
    rw [trimEnd_of_rdropWhile_ne_nil (hself.symm ▸ hne), hself]

theorem mem_of_mem_trimEnd {c : Char} {cs : List Char} (h : c ∈ trimEnd cs) :
    c = '/' ∨ c ∈ cs := by
  rcases trimEnd_eq cs with heq | heq | ⟨heq, _⟩
  · rw [heq] at h
    cases h
  · rw [heq] at h
    exact Or.inl (List.mem_singleton.mp h)
  · rw [heq] at h
    exact Or.inr ((List.rdropWhile_prefix _ cs).subset h)

/-!
# The normal form
-/

theorem backslash_not_mem_normalizeChars (cs : List Char) : '\\' ∉ normalizeChars cs := by
  intro h
  rcases mem_of_mem_trimEnd h with h | h
  · exact absurd h (by decide)
  · exact backslash_not_mem_map_forward cs h

theorem normalizeChars_normalizeChars (cs : List Char) :
    normalizeChars (normalizeChars cs) = normalizeChars cs := by
  have hmap := map_forward_eq_self (backslash_not_mem_normalizeChars cs)
  calc normalizeChars (normalizeChars cs)
      = trimEnd (normalizeChars cs) := by rw [normalizeChars, hmap]
    _ = normalizeChars cs := trimEnd_trimEnd _

@[simp] theorem normalize_normalize (path : String) :
    normalize (normalize path) = normalize path := by
  unfold normalize
  rw [String.toList_ofList, normalizeChars_normalizeChars]

/-!
# Paths with one normal form

Only the slashes at the end are lost, and of the paths of slashes alone how many there are.
-/

theorem trimEnd_of_rdropWhile_eq_nil {cs : List Char} (h : cs.rdropWhile (· = '/') = [])
    (hne : cs ≠ []) : trimEnd cs = ['/'] := by
  cases cs with
  | nil => exact absurd rfl hne
  | cons c cs =>
      unfold trimEnd
      split
      · rfl
      · next hkept => exact absurd rfl (hkept c cs h)

theorem trimEnd_eq_nil_iff {cs : List Char} : trimEnd cs = [] ↔ cs = [] := by
  constructor
  · intro h
    by_contra hne
    by_cases hdrop : cs.rdropWhile (· = '/') = []
    · exact List.cons_ne_nil _ _ ((trimEnd_of_rdropWhile_eq_nil hdrop hne).symm.trans h)
    · exact hdrop ((trimEnd_of_rdropWhile_ne_nil hdrop).symm.trans h)
  · intro h
    rw [h]
    rfl

theorem rdropWhile_trimEnd (cs : List Char) :
    (trimEnd cs).rdropWhile (· = '/') = cs.rdropWhile (· = '/') := by
  by_cases hdrop : cs.rdropWhile (· = '/') = []
  · by_cases hne : cs = []
    · rw [hne]
      rfl
    · rw [trimEnd_of_rdropWhile_eq_nil hdrop hne, hdrop]
      rfl
  · rw [trimEnd_of_rdropWhile_ne_nil hdrop]
    exact List.rdropWhile_idempotent _ _

theorem trimEnd_eq_trimEnd_iff {cs ds : List Char} :
    trimEnd cs = trimEnd ds ↔
      cs.rdropWhile (· = '/') = ds.rdropWhile (· = '/') ∧ (cs = [] ↔ ds = []) := by
  constructor
  · intro h
    constructor
    · rw [← rdropWhile_trimEnd cs, h, rdropWhile_trimEnd]
    · rw [← trimEnd_eq_nil_iff, h, trimEnd_eq_nil_iff]
  · intro h
    by_cases hdrop : cs.rdropWhile (· = '/') = []
    · by_cases hne : cs = []
      · rw [hne, h.2.mp hne]
      · rw [trimEnd_of_rdropWhile_eq_nil hdrop hne,
          trimEnd_of_rdropWhile_eq_nil (h.1 ▸ hdrop) (mt h.2.mpr hne)]
    · rw [trimEnd_of_rdropWhile_ne_nil hdrop, h.1, trimEnd_of_rdropWhile_ne_nil (h.1 ▸ hdrop)]

theorem rdropWhile_append_slashes (cs : List Char) (n : Nat) :
    (cs ++ List.replicate n '/').rdropWhile (· = '/') = cs.rdropWhile (· = '/') := by
  induction n with
  | zero => rw [List.replicate_zero, List.append_nil]
  | succ n ih =>
      rw [List.replicate_succ', ← List.append_assoc, ← ih]
      exact List.rdropWhile_concat_pos _ _ _ (decide_eq_true rfl)

theorem exists_eq_append_slashes (cs : List Char) :
    exists n, cs = cs.rdropWhile (· = '/') ++ List.replicate n '/' := by
  have hslashes : cs.rtakeWhile (· = '/') =
      List.replicate (cs.rtakeWhile (· = '/')).length '/' := by
    apply List.eq_replicate_of_mem
    intro c hc
    simpa using List.mem_rtakeWhile_imp hc
  refine ⟨(cs.rtakeWhile (· = '/')).length, ?_⟩
  rw [← hslashes, List.rdropWhile_append_rtakeWhile]

/-- Equal up to slashes at the end, where all backslashes count as slashes.  The paths of
slashes alone are alike, but the empty path is none of them. -/
def Alike (p q : String) : Prop :=
  exists stem m n, p.toList.map forward = stem ++ List.replicate m '/' ∧
    q.toList.map forward = stem ++ List.replicate n '/' ∧ (stem = [] -> (m = 0 ↔ n = 0))

theorem normalize_eq_normalize_iff {p q : String} : normalize p = normalize q ↔ Alike p q := by
  unfold normalize normalizeChars
  rw [String.ofList_inj, trimEnd_eq_trimEnd_iff]
  constructor
  · intro h
    rcases exists_eq_append_slashes (p.toList.map forward) with ⟨m, hm⟩
    rcases exists_eq_append_slashes (q.toList.map forward) with ⟨n, hn⟩
    rw [h.1] at hm
    refine ⟨_, m, n, hm, hn, ?_⟩
    intro hstem
    rw [hstem, List.nil_append] at hm hn
    have hempty := h.2
    rwa [hm, hn, List.replicate_eq_nil_iff, List.replicate_eq_nil_iff] at hempty
  · intro h
    rcases h with ⟨stem, m, n, hp, hq, hstem⟩
    rw [hp, hq, rdropWhile_append_slashes, rdropWhile_append_slashes]
    refine ⟨rfl, ?_⟩
    rw [List.append_eq_nil_iff, List.append_eq_nil_iff, List.replicate_eq_nil_iff,
      List.replicate_eq_nil_iff]
    exact and_congr_right hstem

theorem backslash_not_mem_normalize (path : String) : '\\' ∉ (normalize path).toList := by
  unfold normalize
  rw [String.toList_ofList]
  exact backslash_not_mem_normalizeChars path.toList

theorem normalize_eq_slash_of_getLast? {path : String}
    (h : (normalize path).toList.getLast? = some '/') : normalize path = "/" := by
  unfold normalize at h ⊢
  rw [String.toList_ofList] at h
  apply String.toList_inj.mp
  rw [String.toList_ofList]
  unfold normalizeChars at h ⊢
  rcases trimEnd_eq (path.toList.map forward) with heq | heq | ⟨heq, hne⟩
  · rw [heq] at h
    cases h
  · exact heq
  · rw [heq] at h hne
    rw [List.getLast?_eq_some_getLast hne] at h
    have hlast := List.rdropWhile_last_not (· = '/') _ hne
    rw [Option.some.inj h] at hlast
    exact absurd (decide_eq_true rfl) hlast

end Path
end Graph
end CodeSurvey
