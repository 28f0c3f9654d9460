import CodeSurvey.Log.Entry
import CodeSurvey.Log.Pattern
import CodeSurvey.Text.Blank
import CodeSurvey.Text.Slice

/-!
# Directives

A directive gives a level for some entries.  In full it reads

    source[span{field=value}]=level

and every part can be left out: the start of the names of its sources, the span in
which an entry stands, and a field with its value.  A word alone is a level if it
names one, and else a source.
-/

namespace CodeSurvey
namespace Log

/-- The lowest level that passes; nothing passes without one. -/
abbrev Threshold := Option Level

namespace Threshold

def passes (t : Threshold) (level : Level) : Bool :=
  match t with
  | some lowest => lowest.weight ≤ level.weight
  | none => false

def everything : Threshold :=
  some .trace

def names : List (String × Threshold) :=
  [("off", none), ("error", some .error), ("warn", some .warn), ("info", some .info),
   ("debug", some .debug), ("trace", some .trace)]

def ofNumber? (cs : List Char) : Option Threshold := do
  let ds := if cs.head? = some '+' then cs.tail else cs
  if ds.isEmpty || !ds.all Text.Decimal.isDigit then none
  else (names[Text.Decimal.value ds]?).map Prod.snd

def ofText? (s : String) : Option Threshold :=
  (names.lookup s.toLower).or (ofNumber? s.toList)

/-- What stands behind an equals sign; nothing there lets everything pass. -/
def ofLevel? (s : String) : Option Threshold :=
  if s = "" then some everything else ofText? s

end Threshold

structure Field where
  name : String
  value : Option String
deriving DecidableEq, Repr

namespace Field

/-- A name, or a name and a value with an equals sign between them; what follows
another equals sign does not count. -/
def ofText? (s : String) : Option Field :=
  match s.splitOn "=" with
  | name :: value :: _ =>
      if s ≠ "" && Pattern.isValue value then some { name, value := some value } else none
  | _ => if s ≠ "" then some { name := s, value := none } else none

end Field

structure Directive where
  /-- How the names of its sources start. -/
  target : Option String
  /-- The span that its entries stand in. -/
  span : Option String
  field : Option Field
  threshold : Threshold
deriving DecidableEq, Repr

namespace Directive

def general (threshold : Threshold) : Directive :=
  { target := none, span := none, field := none, threshold }

/-!
# Reading

A directive is read from its first to its last character that is not blank.  Positions
are counted from the first of them, but the parts are cut out of the text with its
blanks: so a blank in front moves every part.
-/

/-- Which part is being read, and where it started. -/
inductive Stage where
  | start
  | word (start : Nat)
  | span (start : Nat)
  | field (start : Nat)
  | afterField
  | afterBrackets
  | level (start : Nat)
deriving DecidableEq, Repr

/-- A character that a directive can start with, unless it starts with a bracket. -/
def startsWord (c : Char) : Bool :=
  c = '-' || c = ':' || c = '_' || Text.Letter.isLetterOrNumber c

def step? (text : List Char) (d : Directive) (stage : Stage) (place : Nat) (c : Char) :
    Option (Directive × Stage) :=
  let part := fun start => Text.Slice.between? text start (some place)
  match stage with
  | .start =>
      if c = '[' then some (d, .span (place + 1))
      else if startsWord c then some (d, .word place)
      else none
  | .word start =>
      if c = '=' then (part start).map fun s => ({ d with target := some s }, .level (place + 1))
      else if c = '[' then
        (part start).map fun s => ({ d with target := some s }, .span (place + 1))
      else some (d, stage)
  | .span start =>
      if c = ']' then (part start).map fun s => ({ d with span := some s }, .afterBrackets)
      else if c = '\x7b' then
        (part start).map fun s =>
          ({ d with span := if s = "" then none else some s }, .field (place + 1))
      else some (d, stage)
  | .field start =>
      if c = '\x7d' then
        ((part start).bind Field.ofText?).map fun f =>
          ({ d with field := some f }, .afterField)
      else some (d, stage)
  | .afterField => if c = ']' then some (d, .afterBrackets) else none
  | .afterBrackets => if c = '=' then some (d, .level (place + 1)) else none
  | .level _ => some (d, stage)

def steps? (text : List Char) (d : Directive) (stage : Stage) :
    List (Nat × Char) -> Option (Directive × Stage)
  | [] => some (d, stage)
  | (place, c) :: rest =>
      match step? text d stage place c with
      | some (d, stage) => steps? text d stage rest
      | none => none

def finish? (text : List Char) (d : Directive) (stage : Stage) : Option Directive :=
  match stage with
  | .word start =>
      (Text.Slice.between? text start none).map fun word =>
        match Threshold.ofText? word with
        | some threshold => { d with threshold }
        | none => { d with target := some word }
  | .level start =>
      ((Text.Slice.between? text start none).bind Threshold.ofLevel?).map fun threshold =>
        { d with threshold }
  | .afterBrackets => some d
  | _ => none

def ofText? (s : String) : Option Directive :=
  let text := s.toList
  let places := Text.Slice.positions 0 (Text.Blank.trim text)
  match steps? text (general .everything) .start places with
  | some (d, stage) => finish? text d stage
  | none => none

/-!
# Deciding
-/

/-- Whether the directive can be about entries.  Entries stand in no span, and a value
is looked for only in spans. -/
def isStatic (d : Directive) : Bool :=
  d.span.isNone && d.field.all fun f => f.value.isNone

def hasField (e : Entry) (name : String) : Bool :=
  name = "message" || e.details.any fun detail => detail.1 = name

def concerns (d : Directive) (source : String) (e : Entry) : Bool :=
  d.isStatic && (d.target.all fun word => word.toList.isPrefixOf source.toList) &&
    d.field.all fun f => hasField e f.name

/-- How narrow a directive is: first by the length of its target, then by its field. -/
def width (d : Directive) : Nat × Nat :=
  ((d.target.map fun word => word.utf8ByteSize + 1).getD 0, if d.field.isSome then 1 else 0)

def fieldName (d : Directive) : String :=
  (d.field.map Field.name).getD ""

/-- Whether a directive comes before a narrower or later one in the search for the one
that decides.  Of several fields the last name in order comes first. -/
def yieldsTo (d other : Directive) : Bool :=
  let (target, field) := d.width
  let (otherTarget, otherField) := other.width
  target < otherTarget ||
    (target = otherTarget &&
      (field < otherField || (field = otherField && d.fieldName ≤ other.fieldName)))

end Directive
end Log
end CodeSurvey
