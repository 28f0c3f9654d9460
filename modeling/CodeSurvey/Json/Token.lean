import CodeSurvey.Json.Number
import CodeSurvey.Json.Escape

/-!
# Tokens of a JSON text

A text is cut into tokens by a machine that reads one character at a time, so what
it has read of two texts in a row is what it reads of the second after the first.
A word, number or string that breaks the grammar becomes the token `bad`.
-/

namespace CodeSurvey
namespace Json

inductive Token where
  | beginArray
  | endArray
  | beginObject
  | endObject
  | comma
  | colon
  | null
  | flag (value : Bool)
  /-- A number; nothing when it is too large. -/
  | number (value : Option Number)
  /-- A string; nothing when it holds half of a surrogate pair. -/
  | text (value : Option String)
  | bad
deriving DecidableEq, Repr

namespace Token

/-!
# Numbers

The grammar of a number is a small automaton.  It reads as far as it can: what
follows a complete number starts the next token.
-/

/-- How much of a number has been read. -/
inductive Numeral where
  | minus
  | zero
  | whole
  | point
  | fraction
  | mark
  | markSign
  | exponent
deriving DecidableEq, Repr

namespace Numeral

def start? (c : Char) : Option Numeral :=
  if c = '-' then some minus
  else if c = '0' then some zero
  else if Text.Decimal.isDigit c then some whole
  else none

def isComplete : Numeral -> Bool
  | zero | whole | fraction | exponent => true
  | _ => false

def afterWhole? (c : Char) : Option Numeral :=
  if c = '.' then some point
  else if c = 'e' || c = 'E' then some mark
  else none

def next? (n : Numeral) (c : Char) : Option Numeral :=
  let digit := Text.Decimal.isDigit c
  match n with
  | minus => if c = '0' then some zero else if digit then some whole else none
  | zero => afterWhole? c
  | whole => if digit then some whole else afterWhole? c
  | point => if digit then some fraction else none
  | fraction =>
      if digit then some fraction else if c = 'e' || c = 'E' then some mark else none
  | mark =>
      if digit then some exponent else if c = '+' || c = '-' then some markSign else none
  | markSign | exponent => if digit then some exponent else none

end Numeral

/-!
# Strings

A string is collected in reverse.  Four hexadecimal digits give a 16-bit unit; the
first unit of a surrogate pair waits for the second.  A unit that stays alone spoils
the string, but its end is still looked for.
-/

/-- What the next character of a string means. -/
inductive Expect where
  | plain
  | escape
  | hex (digits value : Nat)
deriving DecidableEq, Repr

/-- A string whose closing quote has not been read. -/
structure Open where
  reversed : List Char
  /-- No lone surrogate so far. -/
  sound : Bool
  /-- The first unit of a surrogate pair. -/
  pending : Option Nat
  expect : Expect
deriving DecidableEq, Repr

namespace Open

def empty : Open :=
  { reversed := [], sound := true, pending := none, expect := .plain }

def alone (o : Open) : Open :=
  if o.pending.isSome then { o with sound := false, pending := none } else o

def push (o : Open) (c : Char) : Open :=
  let o := o.alone
  { o with reversed := c :: o.reversed, expect := .plain }

def pushUnit (o : Open) (unit : Nat) : Open :=
  let o := { o with expect := .plain }
  match o.pending with
  | some high =>
      if 0xDC00 ≤ unit ∧ unit < 0xE000 then
        let code := 0x10000 + (high - 0xD800) * 0x400 + (unit - 0xDC00)
        { o with reversed := Char.ofNat code :: o.reversed, pending := none }
      else { o with sound := false, pending := none }
  | none =>
      if 0xD800 ≤ unit ∧ unit < 0xDC00 then { o with pending := some unit }
      else if 0xDC00 ≤ unit ∧ unit < 0xE000 then { o with sound := false }
      else { o with reversed := Char.ofNat unit :: o.reversed }

def close (o : Open) : Token :=
  let o := o.alone
  .text (if o.sound then some (String.ofList o.reversed.reverse) else none)

/-- The string after one more character: still open, closed, or broken. -/
inductive Step where
  | more (string : Open)
  | closed
  | broken

def step (o : Open) (c : Char) : Step :=
  match o.expect with
  | .plain =>
      if c = '"' then .closed
      else if c = '\\' then .more { o with expect := .escape }
      else if c.toNat < 0x20 then .broken
      else .more (o.push c)
  | .escape =>
      if c = 'u' then .more { o with expect := .hex 4 0 }
      else match Escape.unletter? c with
        | some d => .more (o.push d)
        | none => .broken
  | .hex left value =>
      match Escape.hexValue? c with
      | some d =>
          let value := 16 * value + d
          if left ≤ 1 then .more (o.pushUnit value)
          else .more { o with expect := .hex (left - 1) value }
      | none => .broken

end Open

/-!
# The machine
-/

/-- What the machine is in the middle of. -/
inductive Mode where
  | blank
  | string (string : Open)
  | numeral (reversed : List Char) (read : Numeral)
  /-- A word of which these characters are still to come. -/
  | word (left : List Char) (token : Token)
deriving DecidableEq, Repr

/-- The machine: its mode, and the tokens read so far, the last one first. -/
structure Lexer where
  mode : Mode
  reversed : List Token
deriving DecidableEq, Repr

namespace Lexer

def start : Lexer :=
  { mode := .blank, reversed := [] }

def emit (l : Lexer) (t : Token) : Lexer :=
  { mode := .blank, reversed := t :: l.reversed }

def isBlank (c : Char) : Bool :=
  c = ' ' || c = '\n' || c = '\t' || c = '\r'

def begin (l : Lexer) (c : Char) : Lexer :=
  if isBlank c then { l with mode := .blank }
  else match c with
    | '[' => l.emit .beginArray
    | ']' => l.emit .endArray
    | '\x7b' => l.emit .beginObject
    | '\x7d' => l.emit .endObject
    | ',' => l.emit .comma
    | ':' => l.emit .colon
    | '"' => { l with mode := .string .empty }
    | 'n' => { l with mode := .word ['u', 'l', 'l'] .null }
    | 't' => { l with mode := .word ['r', 'u', 'e'] (.flag true) }
    | 'f' => { l with mode := .word ['a', 'l', 's', 'e'] (.flag false) }
    | c => match Numeral.start? c with
      | some n => { l with mode := .numeral [c] n }
      | none => l.emit .bad

def numeralToken (reversed : List Char) (read : Numeral) : Token :=
  if read.isComplete then .number (Number.Literal.ofChars reversed.reverse).number? else .bad

/-- A leading zero is followed by no digit. -/
def refuses (read : Numeral) (c : Char) : Bool :=
  read = .zero && Text.Decimal.isDigit c

def step (l : Lexer) (c : Char) : Lexer :=
  match l.mode with
  | .blank => l.begin c
  | .string o =>
      match o.step c with
      | .more o => { l with mode := .string o }
      | .closed => l.emit o.close
      | .broken => l.emit .bad
  | .numeral cs read =>
      match read.next? c with
      | some read => { l with mode := .numeral (c :: cs) read }
      | none =>
          if refuses read c then l.emit .bad
          else (l.emit (numeralToken cs read)).begin c
  | .word left token =>
      match left with
      | [] => (l.emit token).begin c
      | d :: left =>
          if c = d then
            if left.isEmpty then l.emit token else { l with mode := .word left token }
          else l.emit .bad

def run (l : Lexer) (cs : List Char) : Lexer :=
  cs.foldl step l

/-- The end of the text ends a number; a string or word that is open is broken. -/
def finish (l : Lexer) : Lexer :=
  match l.mode with
  | .blank => l
  | .numeral cs read => l.emit (numeralToken cs read)
  | .string _ | .word _ _ => l.emit .bad

theorem run_append (l : Lexer) (xs ys : List Char) :
    l.run (xs ++ ys) = (l.run xs).run ys := by
  simp [run]

end Lexer

def ofText (s : String) : List Token :=
  ((Lexer.start.run s.toList).finish).reversed.reverse

end Token
end Json
end CodeSurvey
