import CodeSurvey.Record.Fields
import CodeSurvey.Yaml.Node

/-!
# YAML documents

A text holds at most one document: directives, a value, and the values that bear
anchors.  Records are read from its mappings.
-/

namespace CodeSurvey
namespace Yaml

structure Document where
  root : Node
  /-- The values that bear anchors, by their numbers, the last one first. -/
  anchored : List (Nat × Node)
deriving Repr

namespace Document

def coreTag (name : String) : String :=
  "tag:yaml.org,2002:" ++ name

/-- The handles that need no directive. -/
def standardHandles : List (String × String) :=
  [("!", "!"), ("!!", coreTag "")]

def directives : List Token -> Bool -> List (String × String) ->
    Option (List Token × Bool × List (String × String))
  | .version :: rest, versioned, handles =>
      if versioned then none else directives rest true handles
  | .tagHandle handle expansion :: rest, versioned, handles =>
      if (handles.lookup handle).isSome then none
      else directives rest versioned ((handle, expansion) :: handles)
  | rest, versioned, handles => some (rest, versioned || !handles.isEmpty, handles)

def ofTokens (tokens : List Token) : Option Document := do
  if tokens.isEmpty then return { root := .void, anchored := [] }
  else
    let (rest, directed, handles) ← directives tokens false []
    let explicit := rest.head? = some .documentStart
    if directed && !explicit then none
    else
      let state : Node.State :=
        { rest := if explicit then rest.tail else rest
          handles := handles ++ standardHandles
          numbers := []
          anchored := [] }
      let fuel := 4 * tokens.length + 4
      let read :=
        if explicit && (state.rest.isEmpty || state.rest.head? = some .documentEnd) then
          pure (Node.empty none)
        else Node.value fuel Node.inBlock
      let (root, behind) ← read.run state
      if behind.rest.all (· = .documentEnd) then return { root, anchored := behind.anchored }
      else none

/-!
# Values inside a document
-/

structure Subject where
  document : Document
  node : Node

/-- The value that counts; an alias stands for one that is none. -/
def Subject.target (x : Subject) : Node :=
  match x.node with
  | .alias number => (x.document.anchored.lookup number).getD .void
  | node => node

def parse (text : String) : Except Fault Subject :=
  match (Token.ofText text).bind ofTokens with
  | some document => .ok { document, node := document.root }
  | none => .error .malformed

/-!
# Reading records
-/

/-- Whether a scalar may be read as something else than text: a plain one, or a literal
block with the tag of what is read. -/
def isLiteral (name : String) (style : Style) (tag : Option String) : Bool :=
  style = .plain || (style = .literal && tag = some (coreTag name))

def isNull (text : String) : Bool :=
  ["null", "Null", "NULL", "~"].contains text

def flag? (text : String) : Option Bool :=
  if ["true", "True", "TRUE"].contains text then some true
  else if ["false", "False", "FALSE"].contains text then some false
  else none

/-- A number in a base, written with at least one digit and no sign. -/
def baseNumber? (base : Nat) (cs : List Char) : Option Nat := do
  let ds ← cs.mapM Json.Escape.hexValue?
  if ds.isEmpty || ds.any (base ≤ ·) then none
  else some (ds.foldl (fun n d => base * n + d) 0)

/-- A number that fits in 64 bits.  It may have a plus sign, and its base may be given by
`0x`, `0o` or `0b`; without a base it does not start with a needless zero. -/
def natural? (text : String) : Option Nat := do
  let cs := text.toList
  let unsigned := if cs.head? = some '+' then cs.tail else cs
  let n ← match unsigned with
    | '0' :: 'x' :: ds => baseNumber? 16 ds
    | '0' :: 'o' :: ds => baseNumber? 8 ds
    | '0' :: 'b' :: ds => baseNumber? 2 ds
    | '0' :: _ :: _ => none
    | ds => baseNumber? 10 ds
  if n < Nat.pow 2 64 then some n else none

def orMismatch : Option a -> Except Fault a
  | some x => .ok x
  | none => .error .mismatch

def keyName (x : Subject) : Option String :=
  match x.target with
  | .scalar _ _ text => some text
  | _ => none

/-- Only a mapping is a record.  Nothing at all, or nothing written for a value, is a
mapping without entries. -/
instance : Record.Source Subject where
  parts x :=
    match x.target with
    | .mapping entries =>
        .named (entries.map fun (key, y) => (keyName { x with node := key }, { x with node := y }))
          none
    | .void | .scalar .plain _ "" => .named [] none
    | _ => .neither .mismatch
  skipFault _ := none
  surplus := some .mismatch
  isAbsent x :=
    match x.target with
    | .void => .ok true
    | .scalar .plain none text => .ok (text = "" || isNull text)
    | .scalar .plain (some tag) text =>
        if tag ≠ coreTag "null" then .ok false
        else if isNull text then .ok true
        else .error .mismatch
    | _ => .ok false
  flag x :=
    match x.target with
    | .scalar style tag text =>
        orMismatch (if isLiteral "bool" style tag then flag? text else none)
    | _ => .error .mismatch
  text x :=
    match x.target with
    | .scalar _ _ text => .ok text
    | _ => .error .mismatch
  natural x :=
    match x.target with
    | .scalar style tag text =>
        orMismatch (if isLiteral "int" style tag then natural? text else none)
    | _ => .error .mismatch

end Document
end Yaml
end CodeSurvey
