import CodeSurvey.Proofs.Files.Upward
import CodeSurvey.Proofs.Files.Writing

/-!
# What a path names

A path leads to a directory of the tree step by step.  The path above it leads to the place
before the last step, which is the directory above only where that step is a name.  A name
that is joined to a path names what stands under it in the directory.
-/

namespace CodeSurvey
namespace Files

namespace Path

/-- The name of a file or a directory, which is no way to another place. -/
structure IsName (name : String) : Prop where
  proper : name ∉ ["", ".", ".."]
  single : '/' ∉ name.toList
  clean : '\x00' ∉ name.toList
  short : name.utf8ByteSize ≤ Tree.longestName

instance (name : String) : Decidable (IsName name) :=
  decidable_of_iff (name ∉ ["", ".", ".."] ∧ '/' ∉ name.toList ∧
    '\x00' ∉ name.toList ∧ name.utf8ByteSize ≤ Tree.longestName)
    ⟨fun ⟨proper, single, clean, short⟩ => ⟨proper, single, clean, short⟩,
      fun h => ⟨h.proper, h.single, h.clean, h.short⟩⟩

/-!
# Joined paths
-/

theorem go_named (path : String) :
    named path = (named.go [] path.toList).filter fun part => part ≠ "" :=
  rfl

theorem filter_named (path : String) :
    (named path).filter (· ≠ ".") = steps path.toList := by
  rw [go_named, List.filter_filter, steps]
  apply List.filter_congr
  intro part _
  exact Bool.and_comm _ _

theorem filter_parts (path : String) :
    (parts path).filter (· ≠ ".") = steps path.toList := by
  unfold parts
  split
  · rw [List.filter_append, filter_named]
    exact List.append_nil _
  · exact filter_named path

theorem named_append_slash (front more : String) :
    named (front ++ "/" ++ more) = named front ++ named more := by
  rw [go_named, go_named, go_named, ← List.filter_append, ← go_append_slash,
    String.toList_append, String.toList_append, List.append_assoc]
  rfl

theorem IsName.ne_empty {name : String} (h : IsName name) : name ≠ "" :=
  fun heq => h.proper (heq ▸ List.mem_cons_self)

theorem IsName.named_eq {name : String} (h : IsName name) : named name = [name] := by
  rw [go_named, go_of_not_mem h.single, List.reverse_nil, List.nil_append, String.ofList_toList]
  exact List.filter_cons_of_pos (decide_eq_true h.ne_empty)

theorem join_cases (directory : String) :
    directory = "" ∧ (forall name, join directory name = name) ∨
      exists front, (forall name, join directory name = front ++ "/" ++ name) ∧
        (directory = front ++ "/" ∨ directory = front ∧ directory ≠ "") := by
  unfold join
  split
  next hlast =>
    have hempty := String.toList_eq_nil_iff.mp (List.getLast?_eq_none_iff.mp hlast)
    exact Or.inl ⟨hempty, fun _ => rfl⟩
  next c hlast =>
    right
    split
    next hc =>
      rcases List.getLast?_eq_some_iff.mp hlast with ⟨front, hfront⟩
      have hdirectory : directory = String.ofList front ++ "/" := by
        apply String.toList_inj.mp
        rw [hfront, hc, String.toList_append, String.toList_ofList]
        rfl
      exact ⟨String.ofList front, fun name => hdirectory ▸ rfl, Or.inl hdirectory⟩
    next =>
      refine ⟨directory, fun _ => rfl, Or.inr ⟨rfl, ?_⟩⟩
      intro hempty
      rw [hempty] at hlast
      cases hlast

theorem exists_join_eq_append (directory : String) :
    exists front, forall name, join directory name = front ++ name := by
  rcases join_cases directory with ⟨_, hjoin⟩ | ⟨front, hjoin, _⟩
  · exact ⟨"", fun name => (hjoin name).trans String.empty_append.symm⟩
  · exact ⟨front ++ "/", hjoin⟩

theorem join_ne_empty {name : String} (hname : IsName name) (directory : String) :
    join directory name ≠ "" := by
  intro hempty
  rcases exists_join_eq_append directory with ⟨front, hjoin⟩
  rw [hjoin, ← String.toList_eq_nil_iff, String.toList_append] at hempty
  exact hname.ne_empty (String.toList_eq_nil_iff.mp (List.append_eq_nil_iff.mp hempty).2)

theorem named_join {name : String} (hname : IsName name) (directory : String) :
    named (join directory name) = named directory ++ [name] := by
  rcases join_cases directory with ⟨rfl, hjoin⟩ | ⟨front, hjoin, rfl | ⟨rfl, _⟩⟩
  · rw [hjoin, hname.named_eq]
    rfl
  · have hend := named_append_slash front ""
    rw [String.append_empty] at hend
    rw [hjoin, named_append_slash, hname.named_eq, hend]
    exact congrArg (· ++ [name]) (List.append_nil (named front)).symm
  · rw [hjoin, named_append_slash, hname.named_eq]

theorem parts_join {name : String} (hname : IsName name) (directory : String) :
    parts (join directory name) = named directory ++ [name] := by
  rw [← named_join hname]
  unfold parts
  rw [if_neg]
  intro hlast
  rcases exists_join_eq_append directory with ⟨front, hjoin⟩
  rw [hjoin, String.toList_append, List.getLast?_append] at hlast
  cases hend : name.toList.getLast? with
  | none => exact hname.ne_empty (String.toList_eq_nil_iff.mp (List.getLast?_eq_none_iff.mp hend))
  | some c =>
      rw [hend, Option.some_or] at hlast
      exact hname.single (List.mem_of_getLast? (hend.trans hlast))

theorem size_join_le (directory : String) {name other : String}
    (h : other.utf8ByteSize ≤ name.utf8ByteSize) :
    (join directory other).utf8ByteSize ≤ (join directory name).utf8ByteSize := by
  rcases exists_join_eq_append directory with ⟨front, hjoin⟩
  rw [hjoin, hjoin, String.utf8ByteSize_append, String.utf8ByteSize_append]
  exact Nat.add_le_add_left h front.utf8ByteSize

/-!
# Paths that can be used
-/

/-- What a path has to be, wherever it leads. -/
structure Usable (path : String) : Prop where
  clean : '\x00' ∉ path.toList
  short : path.utf8ByteSize ≤ Tree.longestPath
  relative : path.toList.head? ≠ some '/'

theorem startsWith_slash_iff {path : String} :
    path.startsWith "/" = true ↔ path.toList.head? = some '/' := by
  rw [String.startsWith_string_iff]
  cases path.toList with
  | nil => exact iff_of_false (fun h => nomatch List.prefix_nil.mp h) nofun
  | cons c cs =>
      rw [List.head?_cons, Option.some_inj]
      constructor
      · intro h
        exact (List.cons_prefix_cons.mp h).1.symm
      · intro hc
        exact List.cons_prefix_cons.mpr ⟨hc.symm, List.nil_prefix⟩

theorem checkPath_eq_ok_iff {path : String} :
    Tree.checkPath path = .ok () ↔ path ≠ "" ∧ Usable path := by
  unfold Tree.checkPath
  split
  next hzero =>
    exact iff_of_false nofun fun h => h.2.clean (List.contains_iff_mem.mp hzero)
  next hclean =>
    split
    next hlong => exact iff_of_false nofun fun h => Nat.not_lt.mpr h.2.short hlong
    next hshort =>
      split
      next hstart =>
        rw [Bool.or_eq_true, String.isEmpty_iff, startsWith_slash_iff] at hstart
        exact iff_of_false nofun fun h => hstart.elim h.1 h.2.relative
      next hstart =>
        rw [Bool.or_eq_true, String.isEmpty_iff, startsWith_slash_iff, not_or] at hstart
        exact iff_of_true rfl ⟨hstart.1, mt List.contains_iff_mem.mpr hclean,
          Nat.le_of_not_lt hshort, hstart.2⟩

theorem Usable.above {path above : String} (h : Usable path)
    (habove : above.toList <+: path.toList) : Usable above := by
  rcases habove with ⟨rest, hrest⟩
  have hpath : path = above ++ String.ofList rest := by
    apply String.toList_inj.mp
    rw [String.toList_append, String.toList_ofList, hrest]
  constructor
  case clean => exact fun hmem => h.clean (hrest ▸ List.mem_append_left rest hmem)
  case short =>
    have hshort := h.short
    rw [hpath, String.utf8ByteSize_append] at hshort
    exact Nat.le_trans (Nat.le_add_right _ _) hshort
  case relative =>
    intro hhead
    apply h.relative
    rw [← hrest, List.head?_append, hhead]
    rfl

theorem Usable.join {directory name : String} (h : Usable directory) (hname : IsName name)
    (hshort : (Path.join directory name).utf8ByteSize ≤ Tree.longestPath) :
    Usable (Path.join directory name) := by
  rcases join_cases directory with ⟨_, hjoin⟩ | ⟨front, hjoin, hdirectory⟩
  · rw [hjoin] at hshort ⊢
    exact ⟨hname.clean, hshort, fun hhead => hname.single (List.mem_of_head? hhead)⟩
  · have hfront : Usable front ∧ front ≠ "" := by
      rcases hdirectory with rfl | ⟨rfl, hne⟩
      · constructor
        · apply h.above
          rw [String.toList_append]
          exact List.prefix_append _ _
        · intro hempty
          rw [hempty] at h
          exact h.relative rfl
      · exact ⟨h, hne⟩
    refine ⟨?_, hshort, ?_⟩
    · rw [hjoin, String.toList_append, String.toList_append, List.mem_append, List.mem_append]
      exact not_or.mpr ⟨not_or.mpr ⟨hfront.1.clean, by decide⟩, hname.clean⟩
    · rw [hjoin, String.toList_append, String.toList_append, List.append_assoc]
      cases hlist : front.toList with
      | nil => exact absurd (String.toList_eq_nil_iff.mp hlist) hfront.2
      | cons c cs =>
          have hrelative := hfront.1.relative
          rw [hlist] at hrelative
          exact hrelative

end Path

namespace Tree

variable {t : Tree} {place found : List String} {parts more : List String}

/-!
# Ways
-/

theorem Way.isDirectoryAt (h : Way t place parts found) (hfound : t.isDirectoryAt found = true) :
    t.isDirectoryAt place = true := by
  cases h with
  | here => exact hfound
  | dot hdirectory _ => exact hdirectory
  | back hdirectory _ _ => exact hdirectory
  | name hdirectory _ _ _ _ => exact hdirectory

theorem Way.eq {found' : List String} (h : Way t place parts found)
    (h' : Way t place parts found') : found = found' :=
  Except.ok.inj (h.follow.symm.trans h'.follow)

theorem exists_of_way_append (h : Way t place (parts ++ more) found) :
    exists middle, Way t place parts middle ∧ Way t middle more found := by
  induction parts generalizing place with
  | nil => exact ⟨place, .here, h⟩
  | cons part parts ih =>
      cases h with
      | dot hdirectory h =>
          rcases ih h with ⟨middle, hfirst, hlast⟩
          exact ⟨middle, .dot hdirectory hfirst, hlast⟩
      | back hdirectory hplace h =>
          rcases ih h with ⟨middle, hfirst, hlast⟩
          exact ⟨middle, .back hdirectory hplace hfirst, hlast⟩
      | name hdirectory hdots hshort hsome h =>
          rcases ih h with ⟨middle, hfirst, hlast⟩
          exact ⟨middle, .name hdirectory hdots hshort hsome hfirst, hlast⟩

theorem Way.filter (h : Way t place parts found) :
    Way t place (parts.filter (· ≠ ".")) found := by
  induction h with
  | here => exact .here
  | dot _ _ ih =>
      rw [List.filter_cons_of_neg (by simp)]
      exact ih
  | back hdirectory hplace _ ih =>
      rw [List.filter_cons_of_pos (by simp)]
      exact .back hdirectory hplace ih
  | name hdirectory hdots hshort hsome _ ih =>
      rw [List.filter_cons_of_pos (by simpa using hdots.1)]
      exact .name hdirectory hdots hshort hsome ih

/-- A single dot can stand wherever a directory is, and on the way to a directory that is
everywhere. -/
theorem Way.of_filter (hfound : t.isDirectoryAt found = true)
    (h : Way t place (parts.filter (· ≠ ".")) found) : Way t place parts found := by
  induction parts generalizing place with
  | nil => exact h
  | cons part parts ih =>
      by_cases hdot : part = "."
      · rw [List.filter_cons_of_neg (by simp [hdot])] at h
        exact hdot ▸ .dot (h.isDirectoryAt hfound) (ih h)
      · rw [List.filter_cons_of_pos (by simpa using hdot)] at h
        cases h with
        | dot hdirectory h => exact .dot hdirectory (ih h)
        | back hdirectory hplace h => exact .back hdirectory hplace (ih h)
        | name hdirectory hdots hshort hsome h => exact .name hdirectory hdots hshort hsome (ih h)

theorem exists_of_way_concat {part : String} (h : Way t place (parts ++ [part]) found) :
    exists middle, Way t place parts middle ∧ t.isDirectoryAt middle = true ∧
      (part = "." ∧ found = middle ∨
        part = ".." ∧ middle ≠ [] ∧ found = middle.dropLast ∨
        (part ≠ "." ∧ part ≠ "..") ∧ found = middle ++ [part] ∧
          (t.entry? found).isSome = true) := by
  rcases exists_of_way_append h with ⟨middle, hfirst, hlast⟩
  refine ⟨middle, hfirst, ?_⟩
  cases hlast with
  | dot hdirectory h =>
      cases h
      exact ⟨hdirectory, Or.inl ⟨rfl, rfl⟩⟩
  | back hdirectory hmiddle h =>
      cases h
      exact ⟨hdirectory, Or.inr (Or.inl ⟨rfl, hmiddle, rfl⟩)⟩
  | name hdirectory hdots _ hsome h =>
      cases h
      exact ⟨hdirectory, Or.inr (Or.inr ⟨hdots, rfl, hsome⟩)⟩

/-!
# Directories and files by their paths
-/

/-- A path that names a directory; the empty path stands for the working directory. -/
def Names (t : Tree) (path : String) (place : List String) : Prop :=
  t.isDirectoryAt place = true ∧ (path = "" ∧ place = [] ∨ t.resolve path = .ok place)

def isFileAt (t : Tree) (place : List String) : Bool :=
  match t.entry? place with
  | some (.file _) => true
  | _ => false

theorem resolve_eq_ok_iff {path : String} :
    t.resolve path = .ok found ↔
      path ≠ "" ∧ Path.Usable path ∧ Way t [] (Path.parts path) found := by
  unfold resolve
  rw [bind_eq_ok_iff]
  constructor
  · intro h
    rcases h with ⟨_, hcheck, hfollow⟩
    rcases Path.checkPath_eq_ok_iff.mp hcheck with ⟨hne, husable⟩
    exact ⟨hne, husable, way_of_follow hfollow⟩
  · intro h
    rcases h with ⟨hne, husable, hway⟩
    exact ⟨(), Path.checkPath_eq_ok_iff.mpr ⟨hne, husable⟩, hway.follow⟩

/-- A path names a directory by its steps. -/
theorem names_iff {path : String} :
    t.Names path place ↔ t.isDirectoryAt place = true ∧ Path.Usable path ∧
      Way t [] (Path.steps path.toList) place := by
  unfold Names
  rw [resolve_eq_ok_iff]
  apply and_congr_right
  intro hdirectory
  constructor
  · intro h
    rcases h with ⟨rfl, rfl⟩ | ⟨_, husable, hway⟩
    · exact ⟨⟨by decide, by decide, by decide⟩, .here⟩
    · exact ⟨husable, Path.filter_parts path ▸ hway.filter⟩
  · intro h
    rcases h with ⟨husable, hway⟩
    by_cases hempty : path = ""
    · subst hempty
      exact Or.inl ⟨rfl, hway.eq .here⟩
    · rw [← Path.filter_parts] at hway
      exact Or.inr ⟨hempty, husable, hway.of_filter hdirectory⟩

theorem isFile_eq_true_iff {path : String} :
    t.isFile path = true ↔ exists place, t.resolve path = .ok place ∧ t.isFileAt place = true := by
  unfold isFile isFileAt
  cases t.resolve path with
  | error e => exact iff_of_false nofun nofun
  | ok place =>
      constructor
      · intro h
        exact ⟨place, rfl, h⟩
      · intro h
        rcases h with ⟨found, hfound, hfile⟩
        cases hfound
        exact hfile

/-- A name that is joined to the path of a directory names what stands under it there. -/
theorem Names.resolve_join {directory name : String} (h : t.Names directory place)
    (hname : Path.IsName name) :
    t.resolve (Path.join directory name) = .ok found ↔
      (Path.join directory name).utf8ByteSize ≤ longestPath ∧
        found = place ++ [name] ∧ (t.entry? found).isSome = true := by
  rcases names_iff.mp h with ⟨hdirectory, husable, hway⟩
  rw [← Path.filter_named] at hway
  replace hway := hway.of_filter hdirectory
  have hdots : name ≠ "." ∧ name ≠ ".." := by
    constructor
    · exact fun heq => hname.proper (by rw [heq]; decide)
    · exact fun heq => hname.proper (by rw [heq]; decide)
  rw [resolve_eq_ok_iff, Path.parts_join hname]
  constructor
  · intro hresolved
    rcases hresolved with ⟨_, hjoined, hfound⟩
    rcases exists_of_way_concat hfound with ⟨middle, hmiddle, _, hlast⟩
    rw [hmiddle.eq hway] at hlast
    rcases hlast with ⟨heq, _⟩ | ⟨heq, _⟩ | ⟨_, hlast⟩
    · exact absurd heq hdots.1
    · exact absurd heq hdots.2
    · exact ⟨hjoined.short, hlast⟩
  · intro hstands
    rcases hstands with ⟨hshort, rfl, hsome⟩
    refine ⟨Path.join_ne_empty hname directory, husable.join hname hshort, hway.append ?_⟩
    exact .name hdirectory hdots hname.short hsome .here

theorem Names.isFile_join {directory name : String} (h : t.Names directory place)
    (hname : Path.IsName name) :
    t.isFile (Path.join directory name) = true ↔
      (Path.join directory name).utf8ByteSize ≤ longestPath ∧
        t.isFileAt (place ++ [name]) = true := by
  rw [isFile_eq_true_iff]
  constructor
  · intro hisFile
    rcases hisFile with ⟨found, hresolve, hfile⟩
    rcases (h.resolve_join hname).mp hresolve with ⟨hshort, rfl, _⟩
    exact ⟨hshort, hfile⟩
  · intro hstands
    rcases hstands with ⟨hshort, hfile⟩
    have hsome : (t.entry? (place ++ [name])).isSome = true := by
      unfold isFileAt at hfile
      split at hfile
      next hentry => rw [hentry]; rfl
      next => cases hfile
    exact ⟨_, (h.resolve_join hname).mpr ⟨hshort, rfl, hsome⟩, hfile⟩

/-!
# The path above a directory
-/

/-- The path leads to the place and turns back from there. -/
def Turns (t : Tree) (path : String) (place : List String) : Prop :=
  exists before after, Path.steps path.toList = before ++ ".." :: after ∧
    t.follow [] before = .ok place

theorem Turns.of_above {path above : String} (h : t.Turns above place)
    (habove : Path.parent? path = some above) : t.Turns path place := by
  rcases h with ⟨before, after, hsteps, hfollow⟩
  rw [(Path.parent?_spec habove).2] at hsteps
  have hne : Path.steps path.toList ≠ [] := by
    intro hnil
    rw [hnil, List.dropLast_nil] at hsteps
    exact nomatch (List.append_eq_nil_iff.mp hsteps.symm).2
  refine ⟨before, after ++ [(Path.steps path.toList).getLast hne], ?_, hfollow⟩
  rw [← List.cons_append, ← List.append_assoc, ← hsteps, List.dropLast_concat_getLast]

/-- Where a path leads from the place of the path above it: for the most part into a directory
of that place, but a path that turns back at its end leads out of it. -/
inductive Onward (t : Tree) (path : String) (higher : List String) : List String -> Prop where
  | stays : Onward t path higher higher
  | enters (name : String) : Onward t path higher (higher ++ [name])
  | leaves (hhigher : higher ≠ []) (hturns : t.Turns path higher) :
      Onward t path higher higher.dropLast

theorem Names.above {path above : String} (h : t.Names path place)
    (habove : Path.parent? path = some above) :
    exists higher, t.Names above higher ∧ t.Onward path higher place := by
  rcases names_iff.mp h with ⟨hdirectory, husable, hway⟩
  rcases Path.parent?_spec habove with ⟨hstart, hsteps⟩
  rcases List.eq_nil_or_concat' (Path.steps path.toList) with hnil | ⟨before, step, hconcat⟩
  · rw [hnil] at hsteps hway
    refine ⟨place, names_iff.mpr ⟨hdirectory, husable.above hstart, ?_⟩, .stays⟩
    rw [hsteps]
    exact hway
  · rw [hconcat, List.dropLast_concat] at hsteps
    rw [hconcat] at hway
    rcases exists_of_way_concat hway with ⟨higher, hhigher, hhome, hlast⟩
    have hnames : t.Names above higher :=
      names_iff.mpr ⟨hhome, husable.above hstart, hsteps ▸ hhigher⟩
    refine ⟨higher, hnames, ?_⟩
    rcases hlast with ⟨_, rfl⟩ | ⟨rfl, hne, rfl⟩ | ⟨_, rfl, _⟩
    · exact .stays
    · exact .leaves hne ⟨before, [], hconcat, hhigher.follow⟩
    · exact .enters step

theorem Names.eq_nil {path : String} (h : t.Names path place)
    (htop : Path.parent? path = none) : place = [] := by
  have hsteps := Path.steps_of_parent?_eq_none htop
  have hway := (names_iff.mp h).2.2
  rw [hsteps] at hway
  exact hway.eq .here

end Tree
end Files
end CodeSurvey
