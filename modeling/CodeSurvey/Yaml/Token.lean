import CodeSurvey.Yaml.Scalar
import CodeSurvey.Yaml.Word

/-!
# Tokens of a YAML text

The tokens show the structure of a text that is written by indentation alone: where a
block collection starts and ends, and what is a key.  A key is known only by the colon
behind it.  So the place where a key may have started is kept, and when the colon comes
the key's token is put in at that place.
-/

namespace CodeSurvey
namespace Yaml

inductive Style where
  | plain
  | literal
  | other
deriving DecidableEq, Repr

inductive Token where
  | version
  | tagHandle (handle : String) (expansion : String)
  | documentStart
  | documentEnd
  | sequenceStart
  | mappingStart
  | blockEnd
  | flowSequenceStart
  | flowSequenceEnd
  | flowMappingStart
  | flowMappingEnd
  | entry
  | comma
  | key
  | value
  | alias (name : String)
  | anchor (name : String)
  | tag (handle : String) (rest : String)
  | scalar (style : Style) (text : String)
deriving DecidableEq, Repr

/-- Where a key may have started. -/
structure KeyPlace where
  /-- Whether nothing but a key can stand here. -/
  required : Bool
  /-- The number of tokens in front of it. -/
  position : Nat
  line : Nat
  column : Nat
  index : Nat
deriving Repr

structure Scan where
  cursor : Cursor
  tokens : Array Token
  /-- The column of the innermost block collection, and those of the outer ones. -/
  indent : Int
  outerIndents : List Int
  /-- Whether a key may start here. -/
  keyAllowed : Bool
  place : Option KeyPlace
  outerPlaces : List (Option KeyPlace)

namespace Scan

def start (cs : List Char) : Scan :=
  { cursor := .start cs, tokens := #[], indent := -1, outerIndents := [], keyAllowed := true,
    place := none, outerPlaces := [] }

def inFlow (s : Scan) : Bool :=
  !s.outerPlaces.isEmpty

def column (s : Scan) : Int :=
  s.cursor.column

def push (s : Scan) (t : Token) : Scan :=
  { s with tokens := s.tokens.push t }

def insert (s : Scan) (position : Nat) (t : Token) : Scan :=
  { s with tokens := s.tokens.insertIdxIfInBounds position t }

def advance (s : Scan) (n : Nat) : Scan :=
  { s with cursor := s.cursor.advanceBy n }

/-!
# Indentation and keys
-/

def closeBlocks (column : Int) : List Int -> Scan -> Scan
  | [], s => s
  | outer :: outers, s =>
      if s.indent > column then
        closeBlocks column outers
          { s.push .blockEnd with indent := outer, outerIndents := outers }
      else s

def unindent (s : Scan) (column : Int) : Scan :=
  if s.inFlow then s else closeBlocks column s.outerIndents s

/-- Open a block collection at a column, if it stands deeper than those that are open. -/
def indentTo (s : Scan) (column : Int) (position : Nat) (t : Token) : Scan :=
  if !s.inFlow && s.indent < column then
    { s.insert position t with indent := column, outerIndents := s.indent :: s.outerIndents }
  else s

/-- Give up the possible key; none may be given up that is required. -/
def dropPlace (s : Scan) : Option Scan :=
  if s.place.any (·.required) then none else some { s with place := none }

def savePlace (s : Scan) : Option Scan :=
  if s.keyAllowed then do
    let t ← s.dropPlace
    let place : KeyPlace :=
      { required := !s.inFlow && s.indent = s.column
        position := s.tokens.size
        line := s.cursor.line
        column := s.cursor.column
        index := s.cursor.index }
    return { t with place }
  else some s

def longestKey : Nat := 1024

/-- A key stays on one line and within its longest length. -/
def isStale (c : Cursor) (p : KeyPlace) : Bool :=
  p.line < c.line || p.index + longestKey < c.index

def dropStale (s : Scan) : Option Scan :=
  let stale := fun (p : Option KeyPlace) => p.any (isStale s.cursor)
  let fresh := fun (p : Option KeyPlace) => if stale p then none else p
  if (s.place :: s.outerPlaces).any fun p => stale p && p.any (·.required) then none
  else some { s with place := fresh s.place, outerPlaces := s.outerPlaces.map fresh }

/-!
# Between tokens
-/

/-- Move over blanks, comments and breaks.  A tab may not stand where a key may start. -/
def skipBlanks : Nat -> Scan -> Scan
  | 0, s => s
  | fuel + 1, s =>
      let c := s.cursor
      if (c.column = 0 && c.at? '\ufeff') || c.at? ' ' ||
          ((s.inFlow || !s.keyAllowed) && c.at? '\t') then
        skipBlanks fuel (s.advance 1)
      else
        let c := if c.at? '#' then c.advanceBy (Scalar.restOfLine c).length else c
        if c.atBreak then
          skipBlanks fuel
            { s with cursor := c.takeBreak.1, keyAllowed := s.keyAllowed || !s.inFlow }
        else { s with cursor := c }

/-!
# Directives
-/

def skipBlank (c : Cursor) : Cursor :=
  (Word.span Cursor.isBlank c).2

def meaning (name : String) (c : Cursor) : Option (Token × Cursor) :=
  match name with
  | "YAML" => (Word.supportedVersion c).map fun c => (.version, c)
  | "TAG" =>
      (Word.handleMeaning c).map fun (handle, expansion, c) => (.tagHandle handle expansion, c)
  | _ => none

def directive (c : Cursor) : Option (Token × Cursor) := do
  let (name, c) := Word.span Word.isLetter c
  if !Cursor.endsWord (c.peek 0) then none
  else
    let (token, c) ← meaning name (skipBlank c)
    return (token, ← Scalar.skipToEnd c.rest.length.succ false c)

/-!
# One token after the other
-/

def openFlow (s : Scan) (t : Token) : Option Scan := do
  let s ← s.savePlace
  return { (s.push t).advance 1 with
    place := none, outerPlaces := s.place :: s.outerPlaces, keyAllowed := true }

def closeFlow (s : Scan) (t : Token) : Option Scan := do
  let s ← s.dropPlace
  let s := { (s.push t).advance 1 with keyAllowed := false }
  match s.outerPlaces with
  | [] => return s
  | place :: outerPlaces => return { s with place, outerPlaces }

def documentMark (s : Scan) (t : Token) : Option Scan := do
  let s ← (s.unindent (-1)).dropPlace
  return { (s.push t).advance 3 with keyAllowed := false }

def blockEntry (s : Scan) : Option Scan := do
  if !s.inFlow && !s.keyAllowed then none
  else
    let s ← (s.indentTo s.column s.tokens.size .sequenceStart).dropPlace
    return { (s.push .entry).advance 1 with keyAllowed := true }

def explicitKey (s : Scan) : Option Scan := do
  if !s.inFlow && !s.keyAllowed then none
  else
    let s ← (s.indentTo s.column s.tokens.size .mappingStart).dropPlace
    return { (s.push .key).advance 1 with keyAllowed := !s.inFlow }

/-- A colon: what stands at the possible key is one. -/
def valueMark (s : Scan) : Option Scan :=
  match s.place with
  | some p =>
      let s := (s.insert p.position .key).indentTo p.column p.position .mappingStart
      some { (s.push .value).advance 1 with place := none, keyAllowed := false }
  | none =>
      if !s.inFlow && !s.keyAllowed then none
      else
        let s := s.indentTo s.column s.tokens.size .mappingStart
        some { (s.push .value).advance 1 with keyAllowed := !s.inFlow }

def word (s : Scan) (read : Cursor -> Option (Token × Cursor)) : Option Scan := do
  let s ← s.savePlace
  let (t, cursor) ← read s.cursor
  return { s.push t with cursor, keyAllowed := false }

def quotedScalar (s : Scan) (single : Bool) : Option Scan :=
  s.word fun c => do
    let (cs, c) ← Scalar.quoted single c.rest.length.succ [] c.advance
    return (.scalar .other (String.ofList cs), c)

def blockScalar (s : Scan) (literal : Bool) : Option Scan := do
  let s ← s.dropPlace
  let (cs, cursor) ← Scalar.block literal s.indent s.cursor.advance
  let style := if literal then Style.literal else Style.other
  return { s.push (.scalar style (String.ofList cs)) with cursor, keyAllowed := true }

def plainScalar (s : Scan) : Option Scan := do
  let s ← s.savePlace
  let (cs, broken, cursor) ←
    Scalar.plain s.inFlow (s.indent + 1).toNat s.cursor.rest.length.succ .none [] s.cursor
  return { s.push (.scalar .plain (String.ofList cs)) with cursor, keyAllowed := broken }

/-- Whether a plain scalar may start with a character. -/
def startsPlain (inFlow : Bool) (x : Char) (behind : Option Char) : Bool :=
  if x = '-' then !behind.any Cursor.isBlank
  else if x = '?' || x = ':' then !inFlow && !Cursor.endsWord behind
  else !(Cursor.isBlank x || Cursor.isBreak x || ",[]\x7b\x7d#&*!|>'\"%@\x60".toList.contains x)

def token (s : Scan) (x : Char) : Option Scan :=
  let c := s.cursor
  let wordEnds := Cursor.endsWord (c.peek 1)
  if x = '%' && c.column = 0 then do
    let s ← (s.unindent (-1)).dropPlace
    let (t, cursor) ← directive s.cursor.advance
    return { s.push t with cursor, keyAllowed := false }
  else if c.atDocumentMark then
    s.documentMark (if x = '-' then .documentStart else .documentEnd)
  else if x = '[' then s.openFlow .flowSequenceStart
  else if x = '\x7b' then s.openFlow .flowMappingStart
  else if x = ']' then s.closeFlow .flowSequenceEnd
  else if x = '\x7d' then s.closeFlow .flowMappingEnd
  else if x = ',' then do
    let s ← s.dropPlace
    return { (s.push .comma).advance 1 with keyAllowed := true }
  else if x = '-' && wordEnds then s.blockEntry
  else if x = '?' && (s.inFlow || wordEnds) then s.explicitKey
  else if x = ':' && (s.inFlow || wordEnds) then s.valueMark
  else if x = '*' then
    s.word fun c => (Word.anchorName c.advance).map fun (name, c) => (.alias name, c)
  else if x = '&' then
    s.word fun c => (Word.anchorName c.advance).map fun (name, c) => (.anchor name, c)
  else if x = '!' then
    s.word fun c =>
      (Word.tag s.inFlow c).map fun (handle, rest, c) => (.tag handle rest, c)
  else if x = '|' && !s.inFlow then s.blockScalar true
  else if x = '>' && !s.inFlow then s.blockScalar false
  else if x = '\'' then s.quotedScalar true
  else if x = '"' then s.quotedScalar false
  else if startsPlain s.inFlow x (c.peek 1) then s.plainScalar
  else none

def finish (s : Scan) : Option (List Token) := do
  let s ← (s.unindent (-1)).dropPlace
  return s.tokens.toList

/-- Read all tokens; each takes at least one character. -/
def run : Nat -> Scan -> Option (List Token)
  | 0, _ => none
  | fuel + 1, s => do
      let s ← (skipBlanks s.cursor.rest.length.succ s).dropStale
      let s := s.unindent s.column
      match s.cursor.peek 0 with
      | none => s.finish
      | some x => run fuel (← s.token x)

end Scan

namespace Token

def isReadable (c : Char) : Bool :=
  c = '\t' || c = '\n' || c = '\r' || c = '\x85' || (' ' ≤ c && c ≤ '~') ||
    ('\xa0' ≤ c && c ≤ '\ufffd') || '\uffff' < c

def ofText (text : String) : Option (List Token) :=
  let cs := text.toList
  if cs.all isReadable then Scan.run cs.length.succ (.start cs) else none

end Token
end Yaml
end CodeSurvey
