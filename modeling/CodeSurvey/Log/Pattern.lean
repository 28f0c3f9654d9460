import CodeSurvey.Json.Escape
import CodeSurvey.Text.Decimal
import CodeSurvey.Text.Letter

/-!
# Values that filters look for

A filter may ask for the value of a field: a truth value, a number, or a regular
expression that the value must match.  Here it is only decided whether a text can be
read as one of these.

Expressions are read without tables of Unicode.  So there are no classes of digits,
blanks and word characters, no boundaries of words and no ignoring of case, unless
the expression turns Unicode off; but then nothing in it may match a part of a
character.  Counts in braces do not occur, because a brace ends the text.
-/

namespace CodeSurvey
namespace Log
namespace Pattern

/-- What flags change about the reading of an expression. -/
structure Mode where
  ignoresCase : Bool
  unicode : Bool
deriving DecidableEq, Repr

namespace Mode

def initial : Mode :=
  { ignoresCase := false, unicode := true }

/-- Case is ignored by a table of Unicode, which is not there. -/
def lacksCases (m : Mode) : Bool :=
  m.ignoresCase && m.unicode

end Mode

/-!
# Escapes
-/

/-- What an expression is made of. -/
inductive Item where
  | letter (code : Nat)
  | kind
  /-- A place between characters. -/
  | place
deriving DecidableEq, Repr

def hexLetter? (n : Nat) (cs : List Char) : Option (Nat × List Char) := do
  let digits ← (cs.take n).mapM Json.Escape.hexValue?
  let code := digits.foldl (fun sum d => 16 * sum + d) 0
  if digits.length = n && Nat.isValidChar code then some (code, cs.drop n) else none

def shortLetters : List (Char × Nat) :=
  [('a', 0x07), ('f', 0x0C), ('t', 0x09), ('n', 0x0A), ('r', 0x0D), ('v', 0x0B)]

def isEscapable (c : Char) : Bool :=
  c.toNat < 0x80 && !c.isAlphanum && c ≠ '<' && c ≠ '>'

def escape? (m : Mode) : List Char -> Option (Item × List Char)
  | [] => none
  | 'x' :: cs => do
      let (code, rest) ← hexLetter? 2 cs
      if m.unicode || code < 0x80 then some (.letter code, rest) else none
  | 'u' :: cs => (hexLetter? 4 cs).map fun (code, rest) => (.letter code, rest)
  | 'U' :: cs => (hexLetter? 8 cs).map fun (code, rest) => (.letter code, rest)
  | c :: cs =>
      if isEscapable c then some (.letter c.toNat, cs)
      else if c = 'A' || c = 'z' then some (.place, cs)
      else if "bB<>".toList.contains c then
        if m.unicode then none else some (.place, cs)
      else if "dsw".toList.contains c then
        if m.unicode then none else some (.kind, cs)
      else (shortLetters.lookup c).map fun code => (.letter code, cs)

/-!
# Classes
-/

def classNames : List String :=
  ["alnum", "alpha", "ascii", "blank", "cntrl", "digit", "graph", "lower", "print", "punct",
   "space", "upper", "word", "xdigit"]

/-- What follows a named class, whose bracket has been read. -/
def namedClass? (m : Mode) : List Char -> Option (List Char)
  | ':' :: cs =>
      let negated := cs.head? = some '^'
      let cs := if negated then cs.tail else cs
      match cs.dropWhile (· ≠ ':') with
      | ':' :: ']' :: rest =>
          if classNames.contains (String.ofList (cs.takeWhile (· ≠ ':'))) then
            if negated && !m.unicode then none else some rest
          else none
      | _ => none
  | _ => none

/-- The inside of a class whose bracket has been read: hyphens in front stand for
themselves, and so does a bracket where the class would be empty. -/
def openClass? (m : Mode) (cs : List Char) : Option (List Char) :=
  let negated := cs.head? = some '^'
  let cs := if negated then cs.tail else cs
  if negated && !m.unicode then none
  else
    match cs with
    | ']' :: rest => some rest
    | cs => some (cs.dropWhile (· = '-'))

def classItem? (m : Mode) : List Char -> Option (Item × List Char)
  | [] => none
  | '\\' :: cs => escape? m cs
  | c :: cs => if m.unicode || c.toNat < 0x80 then some (.letter c.toNat, cs) else none

/-- What follows a class with `depth` classes around the place inside it.  Every step
takes a character. -/
def closeClass? (m : Mode) : Nat -> Nat -> List Char -> Option (List Char)
  | 0, _, _ => none
  | _, _, [] => none
  | fuel + 1, depth, ']' :: cs =>
      match depth with
      | 0 => some cs
      | outer + 1 => closeClass? m fuel outer cs
  | fuel + 1, depth, '[' :: cs =>
      match namedClass? m cs with
      | some rest => closeClass? m fuel depth rest
      | none => (openClass? m cs).bind (closeClass? m fuel (depth + 1))
  | fuel + 1, depth, '&' :: '&' :: cs => closeClass? m fuel depth cs
  | fuel + 1, depth, '-' :: '-' :: cs => closeClass? m fuel depth cs
  | fuel + 1, depth, '~' :: '~' :: cs => closeClass? m fuel depth cs
  | fuel + 1, depth, cs =>
      match classItem? m cs with
      | none => none
      | some (.place, _) => none
      | some (first, rest) =>
          let spans := rest.head? = some '-' && rest.tail.head? ≠ some ']' &&
            rest.tail.head? ≠ some '-'
          if !spans then closeClass? m fuel depth rest
          else
            match first, classItem? m rest.tail with
            | .letter low, some (.letter high, rest) =>
                if low ≤ high then closeClass? m fuel depth rest else none
            | _, _ => none

/-- What follows a class whose bracket has been read. -/
def class? (m : Mode) (cs : List Char) : Option (List Char) :=
  if m.lacksCases then none else (openClass? m cs).bind (closeClass? m cs.length 0)

/-!
# Groups
-/

def flagLetters : List Char :=
  ['i', 'm', 's', 'U', 'u', 'x', 'R']

/-- Flags up to a colon or a parenthesis: the mode they lead to, and what stands from
the end mark on.  A flag is given once, and a hyphen turns off what follows it. -/
def flags? (m : Mode) (seen : List Char) : List Char -> Option (Mode × List Char)
  | [] => none
  | c :: cs =>
      if c = ':' || c = ')' then
        if seen.head? = some '-' then none else some (m, c :: cs)
      else if seen.contains c || !(c = '-' || flagLetters.contains c) then none
      else
        let on := !seen.contains '-'
        let m :=
          if c = 'i' then { m with ignoresCase := on }
          else if c = 'u' then { m with unicode := on }
          else m
        flags? m (c :: seen) cs

def isGroupName (name : List Char) : Bool :=
  match name with
  | [] => false
  | first :: rest =>
      (first = '_' || (Text.Letter.isLetterOrNumber first && !Text.Decimal.isDigit first)) &&
        rest.all fun c => "_.[]".toList.contains c || Text.Letter.isLetterOrNumber c

/-!
# Expressions
-/

structure Scan where
  mode : Mode
  /-- The modes outside the open groups, nearest first. -/
  outer : List Mode
  /-- There is something in front that can be repeated. -/
  repeatable : Bool
  names : List (List Char)

namespace Scan

def initial : Scan :=
  { mode := .initial, outer := [], repeatable := false, names := [] }

/-- Behind something that can be repeated. -/
def behind (s : Scan) : Scan :=
  { s with repeatable := true }

def enter (s : Scan) (m : Mode) : Scan :=
  { s with mode := m, outer := s.mode :: s.outer, repeatable := false }

/-- Enter a group with a name, up to the mark behind the name. -/
def enterNamed? (s : Scan) (cs : List Char) : Option (Scan × List Char) :=
  let name := cs.takeWhile (· ≠ '>')
  match cs.dropWhile (· ≠ '>') with
  | [] => none
  | _ :: rest =>
      if isGroupName name && !s.names.contains name then
        some ({ s.enter s.mode with names := name :: s.names }, rest)
      else none

/-- Behind an opening parenthesis: flags, or the start of a group.  Nothing can look
around. -/
def group? (s : Scan) : List Char -> Option (Scan × List Char)
  | '?' :: '=' :: _ => none
  | '?' :: '!' :: _ => none
  | '?' :: '<' :: '=' :: _ => none
  | '?' :: '<' :: '!' :: _ => none
  | '?' :: 'P' :: '<' :: cs => s.enterNamed? cs
  | '?' :: '<' :: cs => s.enterNamed? cs
  | '?' :: cs =>
      match flags? s.mode [] cs with
      | some (m, ':' :: rest) => some (s.enter m, rest)
      | some (m, ')' :: rest) =>
          if cs.head? = some ')' then none
          else some ({ s with mode := m, repeatable := false }, rest)
      | _ => none
  | cs => some (s.enter s.mode, cs)

def step? (s : Scan) : Char -> List Char -> Option (Scan × List Char)
  | '(', cs => s.group? cs
  | ')', cs =>
      match s.outer with
      | [] => none
      | m :: outer => some ({ s with mode := m, outer, repeatable := true }, cs)
  | '|', cs => some ({ s with repeatable := false }, cs)
  | '\x7b', _ => none
  | '[', cs => (class? s.mode cs).map fun rest => (s.behind, rest)
  | '\\', cs =>
      match escape? s.mode cs with
      | none => none
      | some (.letter _, rest) => if s.mode.lacksCases then none else some (s.behind, rest)
      | some (_, rest) => some (s.behind, rest)
  | '.', cs => if s.mode.unicode then some (s.behind, cs) else none
  | c, cs =>
      if c = '*' || c = '+' || c = '?' then
        if s.repeatable then some (s, if cs.head? = some '?' then cs.tail else cs) else none
      else if c = '^' || c = '$' then some (s.behind, cs)
      else if s.mode.lacksCases then none
      else some (s.behind, cs)

/-- The rest of an expression can be read.  Every step takes a character. -/
def reads : Nat -> Scan -> List Char -> Bool
  | _, s, [] => s.outer.isEmpty
  | 0, _, _ :: _ => false
  | fuel + 1, s, c :: cs =>
      match s.step? c cs with
      | some (s, rest) => reads fuel s rest
      | none => false

end Scan

def isExpression (cs : List Char) : Bool :=
  Scan.reads cs.length .initial cs

/-!
# Values
-/

def isDigits (cs : List Char) : Bool :=
  !cs.isEmpty && cs.all Text.Decimal.isDigit

def isExponent : List Char -> Bool
  | [] => true
  | e :: cs =>
      (e = 'e' || e = 'E') &&
        isDigits (if cs.head? = some '+' || cs.head? = some '-' then cs.tail else cs)

def isNumber (cs : List Char) : Bool :=
  let whole := cs.takeWhile Text.Decimal.isDigit
  let named := ["inf", "infinity", "nan"].contains (String.ofList cs).toLower
  named ||
    match cs.dropWhile Text.Decimal.isDigit with
    | '.' :: rest =>
        (!whole.isEmpty || !(rest.takeWhile Text.Decimal.isDigit).isEmpty) &&
          isExponent (rest.dropWhile Text.Decimal.isDigit)
    | rest => !whole.isEmpty && isExponent rest

/-- A value that a filter can look for.  Truth values and numbers are expressions, too,
but for numbers with a plus sign. -/
def isValue (s : String) : Bool :=
  match s.toList with
  | '+' :: cs => isNumber cs
  | cs => isExpression cs

end Pattern
end Log
end CodeSurvey
