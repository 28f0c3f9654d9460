import CodeSurvey.Config.Files
import CodeSurvey.Proofs.Files.Naming

/-!
# The nearest configuration file

The search for a configuration file goes up the path, and so from directory to directory.  It
comes by every directory from the start up to the working directory, each before those above
it, and takes the first file that it finds.  Where the path turns back with two dots, the
path above leads into the directory that it turns back from: the search comes by that
directory too, which is not above the start.
-/

namespace CodeSurvey
namespace Config

open Files

/-!
# One directory
-/

/-- The name under which a directory holds its configuration file. -/
structure Held (t : Tree) (place : List String) (name : String) : Prop where
  isFile : t.isFileAt (place ++ [name]) = true
  /-- None of the names that count before it is a file. -/
  first : exists before after, fileNames = before ++ name :: after ∧
    forall other, other ∈ before -> t.isFileAt (place ++ [other]) = false

/-- The search comes by a directory on a path that leads there, and finds nothing in it that
it can open: no file can be opened by a path that is too long. -/
def PassesBy (t : Tree) (start : String) (place : List String) : Prop :=
  exists directory, directory ∈ Path.ancestors start ∧ t.Names directory place ∧
    forall name, name ∈ fileNames -> t.isFileAt (place ++ [name]) = true ->
      Tree.longestPath < (Path.join directory name).utf8ByteSize

variable {t : Tree} {start directory path : String} {home place : List String}

theorem isName_of_mem_fileNames {name : String} (h : name ∈ fileNames) : Path.IsName name := by
  have hall : forall name, name ∈ fileNames -> Path.IsName name := by decide
  exact hall name h

theorem pairwise_size_fileNames :
    fileNames.Pairwise fun a b => a.utf8ByteSize ≤ b.utf8ByteSize := by
  decide

theorem lt_of_findIn_eq_none (h : t.Names directory place) (hnone : findIn t directory = none)
    {name : String} (hname : name ∈ fileNames) (hfile : t.isFileAt (place ++ [name]) = true) :
    Tree.longestPath < (Path.join directory name).utf8ByteSize := by
  have hnot := List.find?_eq_none.mp hnone _ (List.mem_map_of_mem hname)
  rw [h.isFile_join (isName_of_mem_fileNames hname)] at hnot
  exact Nat.lt_of_not_le fun hshort => hnot ⟨hshort, hfile⟩

theorem exists_of_findIn_eq_some (h : t.Names directory place)
    (hsome : findIn t directory = some path) :
    exists name, t.resolve path = .ok (place ++ [name]) ∧ Held t place name := by
  rcases List.find?_eq_some_iff_append.mp hsome with ⟨hfile, front, back, hsplit, hfront⟩
  rcases List.map_eq_append_iff.mp hsplit with ⟨before, rest, hnames, rfl, hrest⟩
  rcases List.map_eq_cons_iff.mp hrest with ⟨name, after, rfl, rfl, _⟩
  have hname : Path.IsName name := by
    apply isName_of_mem_fileNames
    rw [hnames]
    exact List.mem_append_right before List.mem_cons_self
  rcases Tree.isFile_eq_true_iff.mp hfile with ⟨found, hresolve, hfound⟩
  rcases (h.resolve_join hname).mp hresolve with ⟨hshort, rfl, _⟩
  refine ⟨name, hresolve, hfound, before, after, hnames, ?_⟩
  intro other hother
  have hearlier : other ∈ fileNames := by
    rw [hnames]
    exact List.mem_append_left _ hother
  have hle : other.utf8ByteSize ≤ name.utf8ByteSize := by
    have hpairwise := pairwise_size_fileNames
    rw [hnames] at hpairwise
    exact (List.pairwise_append.mp hpairwise).2.2 other hother name List.mem_cons_self
  have hnot := hfront _ (List.mem_map_of_mem hother)
  rw [Bool.not_eq_true'] at hnot
  apply Bool.eq_false_iff.mpr
  intro hheld
  have hisFile := (h.isFile_join (isName_of_mem_fileNames hearlier)).mpr
    ⟨Nat.le_trans (Path.size_join_le directory hle) hshort, hheld⟩
  exact Bool.noConfusion (hnot.symm.trans hisFile)

/-!
# All directories on the way
-/

theorem PassesBy.of_above {above : String} (habove : Path.parent? start = some above)
    (h : PassesBy t above place) : PassesBy t start place := by
  rcases h with ⟨directory, hmem, hnothing⟩
  refine ⟨directory, ?_, hnothing⟩
  rw [Path.ancestors_of_parent? habove]
  exact List.mem_cons_of_mem _ hmem

theorem passesBy_start (h : t.Names start home) (hnone : findIn t start = none) :
    PassesBy t start home := by
  rcases Path.exists_ancestors_eq_cons start with ⟨rest, hrest⟩
  refine ⟨start, ?_, h, fun _ => lt_of_findIn_eq_none h hnone⟩
  rw [hrest]
  exact List.mem_cons_self

/-- Where the search ends that finds a file in a directory. -/
structure Nearest (t : Tree) (start : String) (home directory : List String) : Prop where
  /-- The directory is at or above the start, or the path goes into it and turns back. -/
  above : directory <+: home ∨ t.Turns start directory
  /-- The search comes by all directories from the start up to the one that it ends in, or up
  to the last one that both are in. -/
  nearer : forall place, place <+: home -> place ≠ directory ->
    (forall shared, shared <+: home -> shared <+: directory -> shared <+: place) ->
    PassesBy t start place

theorem nearest_start (t : Tree) (start : String) (home : List String) :
    Nearest t start home home where
  above := Or.inl List.prefix_rfl
  nearer := by
    intro place hplace hne hshared
    have hhome : home <+: place := hshared home List.prefix_rfl List.prefix_rfl
    exact absurd (hplace.eq_of_length_le hhome.length_le) hne

section Above

variable {above : String} {higher found : List String}

/-- The directories above the start are above the place of the path above it. -/
theorem prefix_of_onward (h : t.Onward start higher home) (hplace : place <+: home)
    (hne : place ≠ home) : place <+: higher := by
  cases h with
  | stays => exact hplace
  | enters name => exact (List.prefix_concat_iff.mp hplace).resolve_left hne
  | leaves _ _ => exact hplace.trans (List.dropLast_prefix higher)

/-- What is above the place of the path above is above the start, unless the path turns back
in that very place. -/
theorem prefix_or_turns (h : t.Onward start higher home) (hplace : place <+: higher) :
    place <+: home ∨ place = higher ∧ home <+: higher ∧ t.Turns start higher := by
  cases h with
  | stays => exact Or.inl hplace
  | enters name => exact Or.inl (hplace.trans (List.prefix_append higher [name]))
  | leaves hne hturns =>
      by_cases heq : place = higher
      · exact Or.inr ⟨heq, List.dropLast_prefix higher, hturns⟩
      · rw [← List.dropLast_concat_getLast hne] at hplace heq
        exact Or.inl ((List.prefix_concat_iff.mp hplace).resolve_left heq)

theorem Nearest.of_above (h : t.Names start home) (hnone : findIn t start = none)
    (habove : Path.parent? start = some above) (honward : t.Onward start higher home)
    (hnearest : Nearest t above higher found) : Nearest t start home found where
  above := by
    rcases hnearest.above with hshared | hturns
    · rcases prefix_or_turns honward hshared with hhome | ⟨heq, _, hturns⟩
      · exact Or.inl hhome
      · exact Or.inr (heq ▸ hturns)
    · exact Or.inr (hturns.of_above habove)
  nearer := by
    intro place hplace hne hshared
    by_cases hhome : place = home
    · exact hhome ▸ passesBy_start h hnone
    · apply PassesBy.of_above habove
      apply hnearest.nearer place (prefix_of_onward honward hplace hhome) hne
      intro shared hhigher hfound
      rcases prefix_or_turns honward hhigher with hstart | ⟨heq, hbelow, _⟩
      · exact hshared shared hstart hfound
      · -- The directory found is below the start, so no place above the start counts.
        have hstart : home <+: place :=
          hshared home List.prefix_rfl (hbelow.trans (heq ▸ hfound))
        exact absurd (hplace.eq_of_length_le hstart.length_le) hhome

end Above

/-!
# The search
-/

theorem find?_of_findIn (hsome : findIn t start = some path) : find? t start = some path := by
  rcases Path.exists_ancestors_eq_cons start with ⟨rest, hrest⟩
  unfold find?
  rw [hrest, List.findSome?_cons, hsome]

theorem find?_of_top (htop : Path.parent? start = none) : find? t start = findIn t start := by
  unfold find?
  rw [Path.ancestors_of_parent?_eq_none htop, List.findSome?_cons, List.findSome?_nil]
  cases findIn t start with
  | none => rfl
  | some path => rfl

theorem find?_of_above {above : String} (habove : Path.parent? start = some above)
    (hnone : findIn t start = none) : find? t start = find? t above := by
  unfold find?
  rw [Path.ancestors_of_parent? habove, List.findSome?_cons, hnone]

/-- In every tree and from every path that names a directory: a file that is found is the one
that its directory holds, and the search came by all directories from the start up to there;
that directory is at or above the start, unless the path goes into it and turns back.  When
nothing is found the search came by all directories up to the working directory.  Paths that
are absolute, or that lead out of the working directory, name nothing in a tree; for them the
theorem says nothing. -/
theorem find?_nearest (t : Tree) (start : String) (home : List String)
    (h : t.Names start home) :
    (forall path, find? t start = some path -> exists directory name,
      t.resolve path = .ok (directory ++ [name]) ∧ Held t directory name ∧
        Nearest t start home directory) ∧
    (find? t start = none -> forall place, place <+: home -> PassesBy t start place) := by
  induction start using Path.parent?_induction generalizing home with
  | top start htop =>
      rw [find?_of_top htop]
      constructor
      · intro path hsome
        rcases exists_of_findIn_eq_some h hsome with ⟨name, hresolve, hheld⟩
        exact ⟨home, name, hresolve, hheld, nearest_start t start home⟩
      · intro hnone place hplace
        rw [h.eq_nil htop] at hplace h
        exact List.prefix_nil.mp hplace ▸ passesBy_start h hnone
  | below start above habove ih =>
      cases hfirst : findIn t start with
      | some found =>
          rw [find?_of_findIn hfirst]
          constructor
          · intro path heq
            rcases exists_of_findIn_eq_some h (hfirst.trans heq) with ⟨name, hresolve, hheld⟩
            exact ⟨home, name, hresolve, hheld, nearest_start t start home⟩
          · exact nofun
      | none =>
          rcases h.above habove with ⟨higher, hhigher, honward⟩
          rcases ih higher hhigher with ⟨hsome, hnone⟩
          rw [find?_of_above habove hfirst]
          constructor
          · intro path hpath
            rcases hsome path hpath with ⟨directory, name, hresolve, hheld, hnearest⟩
            exact ⟨directory, name, hresolve, hheld, hnearest.of_above h hfirst habove honward⟩
          · intro hnothing place hplace
            by_cases hhome : place = home
            · exact hhome ▸ passesBy_start h hfirst
            · exact (hnone hnothing place (prefix_of_onward honward hplace hhome)).of_above habove

theorem find?_nearest_dotted :
    let t : Tree := ⟨[(["a"], .directory), (["a", "b"], .directory),
      (["a", "drift.toml"], .directory), (["a", ".drift.yaml"], .file "".toUTF8)]⟩
    t.Names "./a/b/../b//" ["a", "b"] ∧ find? t "./a/b/../b//" = some "./a/b/../.drift.yaml" ∧
      exists directory name,
        t.resolve "./a/b/../.drift.yaml" = .ok (directory ++ [name]) ∧ Held t directory name ∧
          Nearest t "./a/b/../b//" ["a", "b"] directory := by
  intro t
  have h : t.Names "./a/b/../b//" ["a", "b"] := ⟨by decide +kernel, Or.inr (by decide +kernel)⟩
  have hfound : find? t "./a/b/../b//" = some "./a/b/../.drift.yaml" := by decide +kernel
  exact ⟨h, hfound, (find?_nearest t _ _ h).1 _ hfound⟩

/-- The start is the working directory, and the file that is found stands below it. -/
theorem not_above_turned :
    let t : Tree := ⟨[(["a"], .directory), (["a", "drift.toml"], .file "".toUTF8)]⟩
    t.Names "a/.." [] ∧ find? t "a/.." = some "a/drift.toml" ∧
      t.resolve "a/drift.toml" = .ok ["a", "drift.toml"] ∧
      ¬ forall (t : Tree) (start : String) (home : List String) (path : String),
        t.Names start home -> find? t start = some path ->
          exists directory name, t.resolve path = .ok (directory ++ [name]) ∧
            directory <+: home := by
  intro t
  have h : t.Names "a/.." [] := ⟨by decide +kernel, Or.inr (by decide +kernel)⟩
  have hfound : find? t "a/.." = some "a/drift.toml" := by decide +kernel
  have hresolve : t.resolve "a/drift.toml" = .ok ["a", "drift.toml"] := by decide +kernel
  refine ⟨h, hfound, hresolve, ?_⟩
  intro hall
  rcases hall t "a/.." [] "a/drift.toml" h hfound with ⟨directory, name, hpath, hhome⟩
  rw [hresolve, List.prefix_nil.mp hhome] at hpath
  cases hpath

end Config
end CodeSurvey
