import CodeSurvey.Fault

/-!
# Reading records

A record is read from a table of named values or from a list of values in the order
of its fields.  Its description lists the fields: each has a name, a reader for its
value, and perhaps a default.  Reading takes two steps.  First the document is walked
through in its own order, and the first fault found on the way decides: a value that
a field cannot read, a field given twice, an unknown value that is no value at all.
Then the fields are put together from what was found, whatever its order.
-/

namespace CodeSurvey
namespace Record

/-- What a document shows to a reader that wants a record. -/
inductive Parts (s : Type) where
  /-- Named values, in the order of the document; a name that is none cannot be
  read.  At the end the document may break off. -/
  | named (members : List (Option String × s)) (ending : Option Fault)
  | listed (items : List s) (ending : Option Fault)
  | neither (fault : Fault)

/-- A kind of document: what a reader of records has to know about its values. -/
class Source (s : Type) where
  parts : s -> Parts s
  /-- The fault in a value that belongs to no field. -/
  skipFault : s -> Option Fault
  /-- The fault in a list with more values than the record has fields. -/
  surplus : Option Fault
  isAbsent : s -> Except Fault Bool
  flag : s -> Except Fault Bool
  text : s -> Except Fault String
  natural : s -> Except Fault Nat

abbrev Reader (s a : Type) :=
  s -> Except Fault a

namespace Reader

def fault (r : Reader s a) (x : s) : Option Fault :=
  match r x with
  | .ok _ => none
  | .error f => some f

def below [Source s] (bound : Nat) : Reader s Nat := fun x => do
  let n ← Source.natural x
  if n < bound then return n else .error .mismatch

def optional [Source s] (r : Reader s a) : Reader s (Option a) := fun x => do
  if ← Source.isAbsent x then return none
  else (r x).map some

end Reader

structure Slot (s : Type) where
  name : String
  fault : s -> Option Fault

/-- The fields of a record, and the record made from the values found for them. -/
structure Fields (s a : Type) where
  slots : List (Slot s)
  assemble : (String -> Option s) -> Except Fault a

namespace Fields

def pure (x : a) : Fields s a :=
  { slots := [], assemble := fun _ => .ok x }

def apply (f : Fields s (a -> b)) (x : Fields s a) : Fields s b :=
  { slots := f.slots ++ x.slots
    assemble := fun found => do
      let g ← f.assemble found
      let y ← x.assemble found
      return g y }

def required (name : String) (r : Reader s a) : Fields s a :=
  { slots := [{ name, fault := r.fault }]
    assemble := fun found =>
      match found name with
      | some x => r x
      | none => .error .mismatch }

def defaulted (name : String) (r : Reader s a) (default : a) : Fields s a :=
  { slots := [{ name, fault := r.fault }]
    assemble := fun found =>
      match found name with
      | some x => r x
      | none => .ok default }

/-- A field whose value may be absent, and is when it is not given. -/
def optional [Source s] (name : String) (r : Reader s a) : Fields s (Option a) :=
  defaulted name r.optional none

/-!
# Walking through the document
-/

/-- The first fault among named values; `seen` holds the fields that came before. -/
def namedFault [Source s] (slots : List (Slot s)) (ending : Option Fault) :
    List String -> List (Option String × s) -> Option Fault
  | _, [] => ending
  | _, (none, _) :: _ => some .malformed
  | seen, (some name, x) :: rest =>
      match slots.find? fun slot => slot.name = name with
      | none => (Source.skipFault x).or (namedFault slots ending seen rest)
      | some slot =>
          if name ∈ seen then some .mismatch
          else (slot.fault x).or (namedFault slots ending (name :: seen) rest)

/-- The first fault among values listed in the order of the fields. -/
def listedFault [Source s] (ending : Option Fault) :
    List (Slot s) -> List s -> Option Fault
  | _, [] => ending
  | [], _ :: _ => (Source.surplus s).or ending
  | slot :: slots, x :: rest => (slot.fault x).or (listedFault ending slots rest)

def findNamed (members : List (Option String × s)) (name : String) : Option s :=
  members.lookup (some name)

def findListed (slots : List (Slot s)) (items : List s) (name : String) : Option s :=
  ((slots.map Slot.name).zip items).lookup name

def read [Source s] (fields : Fields s a) : Reader s a := fun x =>
  match Source.parts x with
  | .neither fault => .error fault
  | .named members ending =>
      match namedFault fields.slots ending [] members with
      | some fault => .error fault
      | none => fields.assemble (findNamed members)
  | .listed items ending =>
      match listedFault ending fields.slots items with
      | some fault => .error fault
      | none => fields.assemble (findListed fields.slots items)

end Fields
end Record
end CodeSurvey
