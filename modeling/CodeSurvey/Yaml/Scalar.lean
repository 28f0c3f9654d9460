import CodeSurvey.Json.Escape
import CodeSurvey.Text.Decimal
import CodeSurvey.Yaml.Cursor

/-!
# Scalars of YAML

A scalar is written plainly, between quotes, or as a block of lines.  Line breaks
inside it are folded: a single one becomes a space, and of several the first one is
dropped.  In a literal block they stay as they are.  A reader gives the text and where
it ends, or nothing.
-/

namespace CodeSurvey
namespace Yaml

namespace Scalar

/-- Blanks between two words of a scalar: those on one line, or breaks. -/
structure Gap where
  blanks : List Char
  /-- The first break, once the line has ended. -/
  first : Option (List Char)
  /-- The breaks behind the first one. -/
  later : List Char

namespace Gap

def none : Gap :=
  { blanks := [], first := .none, later := [] }

def hasBreak (g : Gap) : Bool :=
  g.first.isSome

def text (g : Gap) : List Char :=
  match g.first with
  | .none => g.blanks
  | some ['\n'] => if g.later.isEmpty then [' '] else g.later
  | some first => first ++ g.later

end Gap

/-- Move over the gap in front of the next word.  Behind a break, a tab may not stand
in front of the column `indent`. -/
def gap (indent : Nat) : Nat -> Gap -> Cursor -> Option (Gap × Cursor)
  | 0, _, _ => none
  | fuel + 1, g, c =>
      if c.atBlank then
        if g.hasBreak then
          if c.column < indent && c.at? '\t' then none else gap indent fuel g c.advance
        else gap indent fuel { g with blanks := g.blanks ++ c.rest.take 1 } c.advance
      else if c.atBreak then
        let (c, line) := c.takeBreak
        match g.first with
        | .none => gap indent fuel { g with blanks := [], first := some line } c
        | some _ => gap indent fuel { g with later := g.later ++ line } c
      else some (g, c)

/-!
# Plain scalars
-/

def isFlowMark (c : Char) : Bool :=
  c = ',' || c = '[' || c = ']' || c = '\x7b' || c = '\x7d'

/-- Whether a plain scalar ends in front of the cursor. -/
def endsPlain (inFlow : Bool) (c : Cursor) : Bool :=
  match c.peek 0 with
  | none => true
  | some x =>
      (x = ':' && Cursor.endsWord (c.peek 1)) || (inFlow && isFlowMark x)

/-- A colon inside a flow collection that neither ends a scalar nor belongs to it. -/
def strayColon (inFlow : Bool) (c : Cursor) : Bool :=
  inFlow && c.at? ':' &&
    (match c.peek 1 with
    | some x => isFlowMark x || x = '?'
    | none => false)

def plainWord (inFlow : Bool) : Nat -> List Char -> Cursor -> Option (List Char × Cursor)
  | 0, _, _ => none
  | fuel + 1, reversed, c =>
      if Cursor.endsWord (c.peek 0) then some (reversed, c)
      else if strayColon inFlow c then none
      else if endsPlain inFlow c then some (reversed, c)
      else plainWord inFlow fuel (c.rest.take 1 ++ reversed) c.advance

def plain (inFlow : Bool) (indent : Nat) :
    Nat -> Gap -> List Char -> Cursor -> Option (List Char × Bool × Cursor)
  | 0, _, _, _ => none
  | fuel + 1, g, reversed, c =>
      let ended := some (reversed.reverse, g.hasBreak, c)
      if c.atDocumentMark || c.at? '#' then ended
      else do
        let (word, behind) ← plainWord inFlow c.rest.length.succ [] c
        let (g, reversed) :=
          if word.isEmpty then (g, reversed)
          else (Gap.none, word ++ g.text.reverse ++ reversed)
        if behind.atBlank || behind.atBreak then
          let (next, c) ← gap indent behind.rest.length.succ g behind
          if !inFlow && c.column < indent then some (reversed.reverse, next.hasBreak, c)
          else plain inFlow indent fuel next reversed c
        else some (reversed.reverse, g.hasBreak, behind)

/-!
# Quoted scalars
-/

def escaped? : Char -> Option Char
  | '0' => some '\x00'
  | 'a' => some '\x07'
  | 'b' => some '\x08'
  | 't' | '\t' => some '\t'
  | 'n' => some '\n'
  | 'v' => some '\x0b'
  | 'f' => some '\x0c'
  | 'r' => some '\r'
  | 'e' => some '\x1b'
  | ' ' => some ' '
  | '"' => some '"'
  | '/' => some '/'
  | '\\' => some '\\'
  | 'N' => some '\x85'
  | '_' => some '\xa0'
  | 'L' => some '\u2028'
  | 'P' => some '\u2029'
  | _ => none

/-- How many hexadecimal digits follow an escape for a code point. -/
def codeWidth? : Char -> Option Nat
  | 'x' => some 2
  | 'u' => some 4
  | 'U' => some 8
  | _ => none

def codePoint? (ds : List Char) : Option Char := do
  let values ← ds.mapM Json.Escape.hexValue?
  let n := values.foldl (fun n d => 16 * n + d) 0
  if h : n.isValidChar then some (Char.ofNatAux n h) else none

def escape (c : Cursor) : Option (Char × Cursor) := do
  let letter ← c.peek 1
  match codeWidth? letter with
  | some width => do
      let ds := (c.rest.drop 2).take width
      if ds.length < width then none
      else return (← codePoint? ds, c.advanceBy (2 + width))
  | none => return (← escaped? letter, c.advanceBy 2)

def quotedWord (single : Bool) :
    Nat -> List Char -> Cursor -> Option (List Char × Bool × Cursor)
  | 0, _, _ => none
  | fuel + 1, reversed, c =>
      if Cursor.endsWord (c.peek 0) then some (reversed, false, c)
      else if single then
        if c.at? '\'' then
          if c.peek 1 = some '\'' then quotedWord single fuel ('\'' :: reversed) (c.advanceBy 2)
          else some (reversed, false, c)
        else quotedWord single fuel (c.rest.take 1 ++ reversed) c.advance
      else if c.at? '"' then some (reversed, false, c)
      else if c.at? '\\' then
        if (c.peek 1).any Cursor.isBreak then some (reversed, true, (c.advance).takeBreak.1)
        else do
          let (x, c) ← escape c
          quotedWord single fuel (x :: reversed) c
      else quotedWord single fuel (c.rest.take 1 ++ reversed) c.advance

def quoted (single : Bool) : Nat -> List Char -> Cursor -> Option (List Char × Cursor)
  | 0, _, _ => none
  | fuel + 1, reversed, c =>
      if c.atDocumentMark || c.isAtEnd then none
      else do
        let (word, broken, c) ← quotedWord single c.rest.length.succ [] c
        let reversed := word ++ reversed
        if c.at? (if single then '\'' else '"') && !broken then
          return (reversed.reverse, c.advance)
        else
          let g := if broken then { Gap.none with first := some [] } else Gap.none
          let (g, c) ← gap 0 c.rest.length.succ g c
          quoted single fuel (g.text.reverse ++ reversed) c

/-!
# Block scalars
-/

/-- What becomes of the breaks at the end of a block. -/
inductive Chomping where
  | strip
  | clip
  | keep
deriving DecidableEq, Repr

/-- The header of a block: chomping and the extra indentation, in either order. -/
def blockHeader (c : Cursor) : Option (Chomping × Nat × Cursor) :=
  let chomping? := fun (c : Cursor) =>
    if c.at? '+' then (Chomping.keep, c.advance)
    else if c.at? '-' then (Chomping.strip, c.advance)
    else (Chomping.clip, c)
  let digit? := fun (c : Cursor) =>
    match c.peek 0 with
    | some x =>
        if x = '0' then none
        else if Text.Decimal.isDigit x then some (Text.Decimal.digitValue x, c.advance)
        else some (0, c)
    | none => some (0, c)
  if c.at? '+' || c.at? '-' then do
    let (chomping, c) := chomping? c
    let (extra, c) ← digit? c
    return (chomping, extra, c)
  else do
    let (extra, c) ← digit? c
    if extra = 0 then return (.clip, 0, c)
    else
      let (chomping, c) := chomping? c
      return (chomping, extra, c)

def skipToEnd : Nat -> Bool -> Cursor -> Option Cursor
  | 0, _, _ => none
  | fuel + 1, inComment, c =>
      if Cursor.endsLine (c.peek 0) then some c
      else if inComment || c.at? '#' then skipToEnd fuel true c.advance
      else if c.atBlank then skipToEnd fuel false c.advance
      else none

/-- Move over empty lines and the indentation of the next one.  While `indent` is zero
the indentation is still to be found out; `widest` is the widest one seen. -/
def blockBreaks (indent : Nat) :
    Nat -> Nat -> List Char -> Cursor -> Option (Nat × List Char × Cursor)
  | 0, _, _, _ => none
  | fuel + 1, widest, breaks, c =>
      let inside := indent = 0 || c.column < indent
      if inside && c.at? ' ' then blockBreaks indent fuel widest breaks c.advance
      else
        let widest := max widest c.column
        if inside && c.at? '\t' then none
        else if c.atBreak then
          let (c, line) := c.takeBreak
          blockBreaks indent fuel widest (breaks ++ line) c
        else some (widest, breaks, c)

def restOfLine (c : Cursor) : List Char :=
  c.rest.takeWhile fun x => !Cursor.isBreak x

/-- The lines of a block.  `first` is the break behind the last line and `later` are the
breaks of the empty lines behind it. -/
def blockLines (literal : Bool) (indent : Nat) :
    Nat -> List Char -> Bool -> List Char -> List Char -> Cursor ->
      Option (List Char × List Char × List Char × Cursor)
  | 0, _, _, _, _, _ => none
  | fuel + 1, text, afterBlank, first, later, c =>
      if c.column ≠ indent || c.isAtEnd then some (text, first, later, c)
      else
        let joined :=
          if !literal && first = ['\n'] && !afterBlank && !c.atBlank then
            if later.isEmpty then [' '] else []
          else first
        let line := restOfLine c
        let behind := Cursor.advanceBy line.length c
        let (next, first) := behind.takeBreak
        match blockBreaks indent next.rest.length.succ 0 [] next with
        | none => none
        | some (_, breaks, next) =>
            blockLines literal indent fuel (text ++ joined ++ later ++ line) c.atBlank first
              breaks next

/-- A block scalar behind its mark, inside a collection with the given indentation. -/
def block (literal : Bool) (parent : Int) (c : Cursor) : Option (List Char × Cursor) := do
  let (chomping, extra, c) ← blockHeader c
  let c ← skipToEnd c.rest.length.succ false c
  let (c, _) := c.takeBreak
  let given := if extra = 0 then 0 else ((max parent 0) + extra).toNat
  let (widest, breaks, c) ← blockBreaks given c.rest.length.succ 0 [] c
  let indent := if given = 0 then max (max widest (parent + 1).toNat) 1 else given
  let (text, first, later, c) ← blockLines literal indent c.rest.length.succ [] false [] breaks c
  let tail :=
    match chomping with
    | .strip => []
    | .clip => first
    | .keep => first ++ later
  return (text ++ tail, c)

end Scalar
end Yaml
end CodeSurvey
