/-!
# Positions in a YAML text

A cursor is the text still to be read, with the line and the column of its first
character.  A line ends at any of six breaks; a carriage return and a line feed
together are one.
-/

namespace CodeSurvey
namespace Yaml

structure Cursor where
  rest : List Char
  line : Nat
  column : Nat
  index : Nat
deriving Repr

namespace Cursor

def start (cs : List Char) : Cursor :=
  { rest := cs, line := 0, column := 0, index := 0 }

def peek (c : Cursor) (n : Nat) : Option Char :=
  c.rest[n]?

def at? (c : Cursor) (x : Char) : Bool :=
  c.rest.head? = some x

def isBreak (c : Char) : Bool :=
  c = '\n' || c = '\r' || c = '\x85' || c = '\u2028' || c = '\u2029'

def isBlank (c : Char) : Bool :=
  c = ' ' || c = '\t'

def endsLine : Option Char -> Bool
  | none => true
  | some c => isBreak c

def endsWord : Option Char -> Bool
  | none => true
  | some c => isBlank c || isBreak c

def atBlank (c : Cursor) : Bool :=
  (c.rest.head?.map isBlank).getD false

def atBreak (c : Cursor) : Bool :=
  (c.rest.head?.map isBreak).getD false

def isAtEnd (c : Cursor) : Bool :=
  c.rest.isEmpty

def advance (c : Cursor) : Cursor :=
  match c.rest with
  | [] => c
  | _ :: rest => { c with rest, column := c.column + 1, index := c.index + 1 }

def advanceBy : Nat -> Cursor -> Cursor
  | 0, c => c
  | n + 1, c => advanceBy n c.advance

/-- Move over a break and give the characters that it stands for. -/
def takeBreak (c : Cursor) : Cursor × List Char :=
  let moved := fun (rest : List Char) (width : Nat) =>
    { c with rest, line := c.line + 1, column := 0, index := c.index + width }
  match c.rest with
  | '\r' :: '\n' :: rest => (moved rest 2, ['\n'])
  | '\u2028' :: rest => (moved rest 1, ['\u2028'])
  | '\u2029' :: rest => (moved rest 1, ['\u2029'])
  | x :: rest => if isBreak x then (moved rest 1, ['\n']) else (c, [])
  | [] => (c, [])

/-- Three dashes or three dots at the start of a line, with nothing directly behind. -/
def atDocumentMark (c : Cursor) : Bool :=
  let mark := c.rest.take 3
  c.column = 0 && (mark = ['-', '-', '-'] || mark = ['.', '.', '.']) && endsWord (c.peek 3)

end Cursor
end Yaml
end CodeSurvey
