import CodeSurvey.Yaml.Token

/-!
# Values of a YAML text

The tokens of one document make up a tree of scalars, sequences and mappings.  Whatever
is left out is an empty scalar.  An alias stands for a value that bears an anchor.

Anchors are numbered.  The number of an anchor is the count of the different names that
came before it, its own name included when it comes again.  So two anchors may have the
same number, and then the later value counts for both.
-/

namespace CodeSurvey
namespace Yaml

inductive Node where
  /-- The value of a text without a document. -/
  | void
  | scalar (style : Style) (tag : Option String) (text : String)
  | sequence (items : List Node)
  | mapping (entries : List (Node × Node))
  /-- The value that bears the anchor with this number. -/
  | alias (number : Nat)
deriving Repr

namespace Node

/-- What is known at a place between two tokens. -/
structure State where
  rest : List Token
  handles : List (String × String)
  /-- The names of anchors with their numbers. -/
  numbers : List (String × Nat)
  anchored : List (Nat × Node)

abbrev Reader := StateT State Option

namespace Reader

def fail : Reader a := fun _ => none

def peek : Reader (Option Token) := fun s => some (s.rest.head?, s)

def skip : Reader Unit := fun s => some ((), { s with rest := s.rest.tail })

def take? (t : Token) : Reader Bool := fun s =>
  if s.rest.head? = some t then some (true, { s with rest := s.rest.tail })
  else some (false, s)

/-- Announce a value with an anchor; given back is how many were announced before. -/
def announce (name : String) : Reader Nat := fun s =>
  let number := s.numbers.length
  some (s.anchored.length,
    { s with
      numbers := (name, number) :: s.numbers.filter fun known => known.1 ≠ name
      anchored := (number, .void) :: s.anchored })

/-- Settle the value that was announced after so many others. -/
def settle (before : Nat) (x : Node) : Reader Unit := fun s =>
  let settled := s.anchored.modify (s.anchored.length - 1 - before) fun (number, _) => (number, x)
  some ((), { s with anchored := settled })

def lookUp (name : String) : Reader Node := fun s =>
  (s.numbers.lookup name).map fun number => (.alias number, s)

def fullTag (handle rest : String) : Reader String := fun s =>
  if handle = "" then some (rest, s)
  else (s.handles.lookup handle).map fun expansion => (expansion ++ rest, s)

end Reader

open Reader

def empty (tag : Option String) : Node :=
  .scalar .plain tag ""

/-- A tag that leaves the kind of a value open. -/
def unspecific : String := "!"

/-- The tag and the anchor in front of a value, in either order and each at most once. -/
def properties : Nat -> Option String -> Option String -> Reader (Option String × Option String)
  | 0, _, _ => fail
  | fuel + 1, tag, anchor => do
      match ← peek, tag, anchor with
      | some (.tag handle rest), none, anchor =>
          skip
          let tag ← fullTag handle rest
          properties fuel (some tag) anchor
      | some (.anchor name), tag, none =>
          skip
          properties fuel tag (some name)
      | _, _, _ => return (tag, anchor)

/-- How the values of a collection are written. -/
structure Place where
  block : Bool
  /-- Whether a sequence may stand at the column of the key in front of it. -/
  indentless : Bool

def inBlock : Place := { block := true, indentless := false }

def behindKey : Place := { block := true, indentless := true }

def inFlow : Place := { block := false, indentless := false }

/-- Whether a flow collection goes on: there is a comma in front of all but the first
of its values. -/
def separated (first : Bool) : Reader Bool :=
  if first then pure true else take? .comma

/-- Whether nothing is written for a value, for one of these tokens comes at once. -/
def omitted (ends : List Token) : Reader Bool := do
  match ← peek with
  | none => return true
  | some t => return ends.contains t

mutual

def value : Nat -> Place -> Reader Node
  | 0, _ => fail
  | fuel + 1, place => do
      match ← peek with
      | some (.alias name) =>
          skip
          lookUp name
      | _ =>
          let (tag, anchor) ← properties 3 none none
          let described := tag.isSome || anchor.isSome
          match anchor with
          | none => content fuel place tag described
          | some name =>
              let before ← announce name
              let x ← content fuel place tag described
              settle before x
              return x

def content : Nat -> Place -> Option String -> Bool -> Reader Node
  | 0, _, _, _ => fail
  | fuel + 1, place, tag, described => do
      match ← peek, place with
      | some .entry, { indentless := true, .. } => return .sequence (← indentlessItems fuel)
      | some (.scalar style text), _ =>
          skip
          return .scalar style (tag.filter (· ≠ unspecific)) text
      | some .flowSequenceStart, _ =>
          skip
          return .sequence (← flowItems fuel true)
      | some .flowMappingStart, _ =>
          skip
          return .mapping (← flowEntries fuel true)
      | some .sequenceStart, { block := true, .. } =>
          skip
          return .sequence (← blockItems fuel)
      | some .mappingStart, { block := true, .. } =>
          skip
          return .mapping (← blockEntries fuel)
      | _, _ => if described then return empty tag else fail

/-- A value, or nothing in front of one of these tokens. -/
def optionalValue : Nat -> Place -> List Token -> Reader Node
  | 0, _, _ => fail
  | fuel + 1, place, ends => do
      if ← omitted ends then return empty none
      else value fuel place

def blockItems : Nat -> Reader (List Node)
  | 0 => fail
  | fuel + 1 => do
      if ← take? .blockEnd then return []
      else if ← take? .entry then
        let x ← optionalValue fuel inBlock [.entry, .blockEnd]
        return x :: (← blockItems fuel)
      else fail

def indentlessItems : Nat -> Reader (List Node)
  | 0 => fail
  | fuel + 1 => do
      if ← take? .entry then
        let x ← optionalValue fuel inBlock [.entry, .key, .value, .blockEnd]
        return x :: (← indentlessItems fuel)
      else return []

def blockEntries : Nat -> Reader (List (Node × Node))
  | 0 => fail
  | fuel + 1 => do
      if ← take? .blockEnd then return []
      else
        let ends := [Token.key, .value, .blockEnd]
        if !(← take? .key) then fail
        else
          let key ← optionalValue fuel behindKey ends
          let x ←
            if ← take? .value then optionalValue fuel behindKey ends
            else pure (empty none)
          return (key, x) :: (← blockEntries fuel)

def flowItems : Nat -> Bool -> Reader (List Node)
  | 0, _ => fail
  | fuel + 1, first => do
      if ← take? .flowSequenceEnd then return []
      else if !(← separated first) then fail
      else if ← take? .flowSequenceEnd then return []
      else if ← take? .key then
        let ends := [Token.comma, .flowSequenceEnd]
        -- a key of which nothing is written takes the next token with it
        let key ←
          if ← omitted (.value :: ends) then do
            skip
            pure (empty none)
          else value fuel inFlow
        let x ←
          if ← take? .value then optionalValue fuel inFlow ends
          else pure (empty none)
        return .mapping [(key, x)] :: (← flowItems fuel false)
      else
        let x ← value fuel inFlow
        return x :: (← flowItems fuel false)

def flowEntries : Nat -> Bool -> Reader (List (Node × Node))
  | 0, _ => fail
  | fuel + 1, first => do
      if ← take? .flowMappingEnd then return []
      else if !(← separated first) then fail
      else if ← take? .flowMappingEnd then return []
      else if ← take? .key then
        let ends := [Token.comma, .flowMappingEnd]
        let key ← optionalValue fuel inFlow (.value :: ends)
        let x ←
          if ← take? .value then optionalValue fuel inFlow ends
          else pure (empty none)
        return (key, x) :: (← flowEntries fuel false)
      else
        let key ← value fuel inFlow
        return (key, empty none) :: (← flowEntries fuel false)

end

end Node
end Yaml
end CodeSurvey
