import CodeSurvey.Files.Path

/-!
# File trees

A tree of directories and files, seen from a working directory.  Every entry is known
by the names on the way to it.  A path is followed name by name: a name leads on only
from a directory, two dots lead back, and what lies above the working directory is
not part of the tree.  Names and paths have limits to their length; a name is measured
where it is looked up, so what is wrong on the way to it comes first.
-/

namespace CodeSurvey
namespace Files

inductive PathError where
  /-- A zero stands in the path. -/
  | invalidInput
  | tooLong
  | notFound
  | isADirectory
  | notADirectory
  | alreadyExists
  /-- The file is not text in UTF-8. -/
  | invalidData
deriving DecidableEq, Repr

inductive Entry where
  | file (content : ByteArray)
  | directory

structure Tree where
  entries : List (List String × Entry)

namespace Tree

def empty : Tree :=
  { entries := [] }

/-- The entry at a place in the tree; the working directory is the empty place. -/
def entry? (t : Tree) (place : List String) : Option Entry :=
  match place with
  | [] => some .directory
  | place => t.entries.lookup place

def isDirectoryAt (t : Tree) (place : List String) : Bool :=
  match t.entry? place with
  | some .directory => true
  | _ => false

def put (t : Tree) (place : List String) (e : Entry) : Tree :=
  { entries := (place, e) :: t.entries.filter fun old => old.1 ≠ place }

def longestName : Nat := 255

def longestPath : Nat := 4095

/-- What is wrong with a path wherever it leads.  The root of the file system is not part of a
tree, so an absolute path is not found in it. -/
def checkPath (path : String) : Except PathError Unit :=
  if path.toList.contains '\x00' then .error .invalidInput
  else if longestPath < path.utf8ByteSize then .error .tooLong
  else if path.isEmpty || path.startsWith "/" then .error .notFound
  else .ok ()

def follow (t : Tree) (place : List String) : List String -> Except PathError (List String)
  | [] => .ok place
  | part :: parts =>
      if !t.isDirectoryAt place then .error .notADirectory
      else if part = "." then t.follow place parts
      else if part = ".." then
        if place.isEmpty then .error .notFound else t.follow place.dropLast parts
      else if longestName < part.utf8ByteSize then .error .tooLong
      else
        let next := place ++ [part]
        if (t.entry? next).isSome then t.follow next parts else .error .notFound

def resolve (t : Tree) (path : String) : Except PathError (List String) := do
  checkPath path
  t.follow [] (Path.parts path)

def isFile (t : Tree) (path : String) : Bool :=
  match t.resolve path with
  | .ok place =>
      match t.entry? place with
      | some (.file _) => true
      | _ => false
  | .error _ => false

def isDirectory (t : Tree) (path : String) : Bool :=
  match t.resolve path with
  | .ok place => t.isDirectoryAt place
  | .error _ => false

/-!
# Reading
-/

def readBytes (t : Tree) (path : String) : Except PathError ByteArray := do
  let place ← t.resolve path
  match t.entry? place with
  | some (.file content) => return content
  | some .directory => .error .isADirectory
  | none => .error .notFound

def readText (t : Tree) (path : String) : Except PathError String := do
  let content ← t.readBytes path
  match String.fromUTF8? content with
  | some s => return s
  | none => .error .invalidData

/-!
# Writing
-/

/-- The place of the directory that holds the last part of a path, and that part;
slashes behind it do not count. -/
def lastPart (t : Tree) (path : String) : Except PathError (List String × String) := do
  checkPath path
  let names := Path.named path
  let place ← t.follow [] names.dropLast
  if t.isDirectoryAt place then return (place, names.getLastD ".")
  else .error .notADirectory

/-- Write a file, new or in place of an old one.  A slash at the end of its path can
only follow the name of a directory. -/
def write (t : Tree) (path : String) (content : ByteArray) : Except PathError Tree := do
  let (place, part) ← t.lastPart path
  let target := place ++ [part]
  if path.endsWith "/" || part = "." || part = ".." then .error .isADirectory
  else if longestName < part.utf8ByteSize then .error .tooLong
  else if t.isDirectoryAt target then .error .isADirectory
  else return t.put target (.file content)

def makeDirectory (t : Tree) (path : String) : Except PathError Tree := do
  let (place, part) ← t.lastPart path
  let target := place ++ [part]
  if part = "." || part = ".." then .error .alreadyExists
  else if longestName < part.utf8ByteSize then .error .tooLong
  else if (t.entry? target).isSome then .error .alreadyExists
  else return t.put target .directory

/-- A tree, and what kept it from becoming the wanted one. -/
abbrev Attempt := Tree × Option PathError

def ensureDirectory (t : Tree) (path : String) : Attempt :=
  match t.makeDirectory path with
  | .ok made => (made, none)
  | .error e => if t.isDirectory path then (t, none) else (t, some e)

/-- Make a directory and those above it, given nearest first, where they are missing.
What could be made stays also when the rest cannot be made. -/
def makeFirst (t : Tree) : List String -> Attempt
  | [] => (t, some .notFound)
  | path :: above =>
      if path.isEmpty then (t, none)
      else
        match t.ensureDirectory path with
        | (t, some .notFound) =>
            match t.makeFirst above with
            | (t, none) => t.ensureDirectory path
            | failed => failed
        | done => done

def makeDirectories (t : Tree) (path : String) : Attempt :=
  t.makeFirst (Path.ancestors path)

/-- The directory of a path, if the path names one. -/
def parent? (path : String) : Option String :=
  (Path.parent? path).filter fun p => !p.isEmpty

/-- Write a file after making the directory it stands in, which stays also when the
file cannot be written. -/
def writeBelow (t : Tree) (path : String) (content : ByteArray) : Attempt :=
  let (t, problem) := match parent? path with
    | some parent => t.makeDirectories parent
    | none => (t, none)
  match problem with
  | some e => (t, some e)
  | none =>
      match t.write path content with
      | .ok written => (written, none)
      | .error e => (t, some e)

def files (t : Tree) : List (String × ByteArray) :=
  let named := t.entries.filterMap fun (place, e) =>
    match e with
    | .file content => some ("/".intercalate place, content)
    | .directory => none
  named.mergeSort fun a b => a.1 ≤ b.1

end Tree
end Files
end CodeSurvey
