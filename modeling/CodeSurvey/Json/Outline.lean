import CodeSurvey.Fault
import CodeSurvey.Json.Token
import CodeSurvey.Json.Value

/-!
# Outlines: what a text shows, up to its first fault

A reader that wants a record walks through a text from left to right and stops at
the first thing it cannot use.  Whether that is a fault of the text or only of its
shape depends on what the reader wants, so the text is first turned into an outline
that keeps faults where they stand: a value that is not there is `broken`, and an
array or object that does not come to a proper end says so after its last item.
-/

namespace CodeSurvey
namespace Json

/-- How an array or object ends. -/
inductive Ending where
  | closed
  /-- It breaks off; a reader that wants a name there meets the given fault. -/
  | cut (fault : Fault)
deriving DecidableEq, Repr

inductive Outline where
  | broken
  | null
  | flag (value : Bool)
  | number (value : Option Number)
  | text (value : Option String)
  | array (items : List Outline) (ending : Ending)
  | object (members : List (Option String × Outline)) (ending : Ending)
  /-- An array or object nested too deep to be read, though it may be skipped. -/
  | deep (inner : Outline)
deriving Repr

namespace Outline

/-- An array or object around this many others is nested too deep. -/
def depthLimit : Nat := 127

/-- An array or object whose closing bracket has not been read; items and members
are kept in reverse. -/
inductive Frame where
  | array (reversed : List Outline)
  | object (reversed : List (Option String × Outline)) (key : Option String)
deriving Repr

/-- What the next token has to be. -/
inductive Want where
  | value
  /-- The first item of an array, or its end. -/
  | firstItem
  /-- A comma or the end, behind an item or member. -/
  | separator
  /-- The first key of an object, or its end. -/
  | firstKey
  /-- A key behind a comma. -/
  | key
  | colon
deriving DecidableEq, Repr

inductive Builder where
  | building (stack : List Frame) (want : Want)
  /-- The text came to its value, and to nothing behind it unless `trailing`. -/
  | built (outline : Outline) (trailing : Bool)
deriving Repr

namespace Builder

def start : Builder :=
  .building [] .value

def put (o : Outline) : List Frame -> Builder
  | [] => .built o false
  | .array items :: rest => .building (.array (o :: items) :: rest) .separator
  | .object members key :: rest =>
      .building (.object ((key, o) :: members) key :: rest) .separator

def close (ending : Ending) : Frame -> Outline
  | .array items => .array items.reverse ending
  | .object members _ => .object members.reverse ending

/-- Mark what stands inside too many others. -/
def atDepth (rest : List Frame) (o : Outline) : Outline :=
  if depthLimit ≤ rest.length then .deep o else o

/-- Close everything that is open, when the text breaks off behind a value. -/
def abandon (o : Outline) : List Frame -> Outline
  | [] => o
  | .array items :: rest =>
      abandon (atDepth rest (.array (o :: items).reverse (.cut .malformed))) rest
  | .object members key :: rest =>
      abandon (atDepth rest (.object ((key, o) :: members).reverse (.cut .malformed))) rest

/-- Close everything that is open, when the text breaks off where no value stands;
a reader of the innermost object that wants a name there meets the given fault. -/
def breakOff (fault : Fault) : List Frame -> Builder
  | [] => .built .broken false
  | frame :: rest => .built (abandon (atDepth rest (close (.cut fault) frame)) rest) false

/-- The text breaks off where a value has to stand. -/
def breakValue (stack : List Frame) : Builder :=
  .built (abandon .broken stack) false

def faultForName : Token -> Fault
  | .null | .flag _ | .beginArray | .beginObject | .number (some _) => .mismatch
  | .number none | .text _ | .bad | .comma | .colon | .endArray | .endObject => .malformed

def value (stack : List Frame) : Token -> Builder
  | .null => put .null stack
  | .flag b => put (.flag b) stack
  | .number n => put (.number n) stack
  | .text s => put (.text s) stack
  | .beginArray => .building (.array [] :: stack) .firstItem
  | .beginObject => .building (.object [] none :: stack) .firstKey
  | .bad | .comma | .colon | .endArray | .endObject => breakValue stack

def key (stack : List Frame) (t : Token) : Builder :=
  match t, stack with
  | .text s, .object members _ :: rest => .building (.object members s :: rest) .colon
  | t, stack => breakOff (faultForName t) stack

def finish : List Frame -> Builder
  | [] => .built .broken false
  | frame :: rest => put (atDepth rest (close .closed frame)) rest

def separator (stack : List Frame) (t : Token) : Builder :=
  match t, stack with
  | .comma, .array _ :: _ => .building stack .value
  | .comma, .object _ _ :: _ => .building stack .key
  | .endArray, .array _ :: _ => finish stack
  | .endObject, .object _ _ :: _ => finish stack
  | _, stack => breakOff .malformed stack

def step (b : Builder) (t : Token) : Builder :=
  match b with
  | .built o _ => .built o true
  | .building stack want =>
      match want, t with
      | .firstItem, .endArray => finish stack
      | .firstKey, .endObject => finish stack
      | .value, t | .firstItem, t => value stack t
      | .firstKey, t | .key, t => key stack t
      | .colon, .colon => .building stack .value
      | .colon, _ => breakValue stack
      | .separator, t => separator stack t

def ended (b : Builder) : Outline × Bool :=
  match b with
  | .built o trailing => (o, trailing)
  | .building stack want =>
      let b :=
        match want with
        | .value | .colon => breakValue stack
        | .firstItem | .separator | .firstKey | .key => breakOff .malformed stack
      match b with
      | .built o trailing => (o, trailing)
      | .building _ _ => (.broken, false)

end Builder

def ofText (s : String) : Outline × Bool :=
  ((Token.ofText s).foldl Builder.step Builder.start).ended

mutual

def ofValue : Value -> Outline
  | .null => .null
  | .flag b => .flag b
  | .number n => .number (some n)
  | .text s => .text (some s)
  | .array items => .array (ofItems items) .closed
  | .object members => .object (ofMembers members) .closed

def ofItems : List Value -> List Outline
  | [] => []
  | v :: vs => ofValue v :: ofItems vs

def ofMembers : List (String × Value) -> List (Option String × Outline)
  | [] => []
  | (key, v) :: rest => (some key, ofValue v) :: ofMembers rest

end

/-!
# Readers that want nothing in particular
-/

mutual

/-- The fault in a value that is passed over: only its grammar counts. -/
def skipFault : Outline -> Option Fault
  | .broken => some .malformed
  | .null | .flag _ | .number _ | .text _ => none
  | .array items ending => (skipItems items).or (endingFault ending)
  | .object members ending => (skipMembers members).or (endingFault ending)
  | .deep inner => skipFault inner

def skipItems : List Outline -> Option Fault
  | [] => none
  | o :: os => (skipFault o).or (skipItems os)

def skipMembers : List (Option String × Outline) -> Option Fault
  | [] => none
  | (_, o) :: rest => (skipFault o).or (skipMembers rest)

/-- Text that breaks off inside an array or object is malformed. -/
def endingFault : Ending -> Option Fault
  | .closed => none
  | .cut _ => some .malformed

end

/-- The fault met by a reader that wants something else than what stands here. -/
def otherwise : Outline -> Fault
  | .broken | .number none | .text none => .malformed
  | _ => .mismatch

mutual

def value? : Outline -> Except Fault Value
  | .broken | .number none | .text none | .deep _ => .error .malformed
  | .null => .ok .null
  | .flag b => .ok (.flag b)
  | .number (some n) => .ok (.number n)
  | .text (some s) => .ok (.text s)
  | .array items ending => do
      let items ← items? items
      endedWell ending
      return .array items
  | .object members ending => do
      let members ← members? members
      endedWell ending
      return .object (Value.sortMembers members)

def items? : List Outline -> Except Fault (List Value)
  | [] => .ok []
  | o :: os => do
      let v ← value? o
      let vs ← items? os
      return v :: vs

def members? : List (Option String × Outline) -> Except Fault (List (String × Value))
  | [] => .ok []
  | (none, _) :: _ => .error .malformed
  | (some key, o) :: rest => do
      let v ← value? o
      let ms ← members? rest
      return (key, v) :: ms

def endedWell : Ending -> Except Fault Unit
  | .closed => .ok ()
  | .cut _ => .error .malformed

end

end Outline

def Value.parse (s : String) : Except Fault Value := do
  let (outline, trailing) := Outline.ofText s
  let v ← outline.value?
  if trailing then .error .malformed else return v

end Json
end CodeSurvey
