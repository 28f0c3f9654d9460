import CodeSurvey.Json.Escape
import CodeSurvey.Text.Decimal
import CodeSurvey.Time.Calendar
import CodeSurvey.Toml.Value

/-!
# Lexemes of TOML

Blanks, comments, strings, numbers and dates.  A reader gives what it has read and the
characters behind it, or nothing.
-/

namespace CodeSurvey
namespace Toml

abbrev Scan (a : Type) :=
  List Char -> Option (a × List Char)

/-- How many parts a key may have, and how many arrays and tables on a line may stand
inside each other. -/
def deepest : Nat := 79

namespace Lexeme

def isBlank (c : Char) : Bool :=
  c = ' ' || c = '\t'

def skipBlanks (cs : List Char) : List Char :=
  cs.dropWhile isBlank

/-- Characters that may stand in a comment or a string: no control characters but the
tab. -/
def isPlain (c : Char) : Bool :=
  c = '\t' || (0x20 ≤ c.toNat && c.toNat ≠ 0x7F)

def newLine? : List Char -> Option (List Char)
  | '\n' :: rest => some rest
  | '\r' :: '\n' :: rest => some rest
  | _ => none

def skipComment : List Char -> List Char
  | '#' :: rest => rest.dropWhile isPlain
  | cs => cs

/-- The end of a line: blanks and a comment, then a line break or the end. -/
def endOfLine? (cs : List Char) : Option (List Char) :=
  match skipComment (skipBlanks cs) with
  | [] => some []
  | cs => newLine? cs

/-- Blanks, comments and line breaks, at most `fuel` lines of them. -/
def skipLines : Nat -> List Char -> List Char
  | 0, cs => cs
  | fuel + 1, cs =>
      let cs := skipComment (skipBlanks cs)
      match newLine? cs with
      | some rest => skipLines fuel rest
      | none => cs

/-!
# Strings
-/

def escaped? : Char -> Option Char
  | 'b' => some '\x08'
  | 't' => some '\t'
  | 'n' => some '\n'
  | 'f' => some '\x0c'
  | 'r' => some '\r'
  | '"' => some '"'
  | '\\' => some '\\'
  | _ => none

def codePoint? (ds : List Char) : Option Char := do
  let values ← ds.mapM Json.Escape.hexValue?
  let n := values.foldl (fun n d => 16 * n + d) 0
  if h : n.isValidChar then some (Char.ofNatAux n h) else none

def basic (reversed : List Char) : Scan String
  | '"' :: rest => some (String.ofList reversed.reverse, rest)
  | '\\' :: 'u' :: a :: b :: c :: d :: rest => do
      basic ((← codePoint? [a, b, c, d]) :: reversed) rest
  | '\\' :: 'U' :: a :: b :: c :: d :: e :: f :: g :: h :: rest => do
      basic ((← codePoint? [a, b, c, d, e, f, g, h]) :: reversed) rest
  | '\\' :: c :: rest => do basic ((← escaped? c) :: reversed) rest
  | c :: rest => if isPlain c && c ≠ '\\' then basic (c :: reversed) rest else none
  | [] => none

def literal (reversed : List Char) : Scan String
  | '\'' :: rest => some (String.ofList reversed.reverse, rest)
  | c :: rest => if isPlain c then literal (c :: reversed) rest else none
  | [] => none

/-- The end of a string over several lines: three quotes, behind at most two that
belong to the string. -/
def closing? (quote : Char) (reversed : List Char) (cs : List Char) :
    Option (String × List Char) :=
  let quotes := (cs.takeWhile (· = quote)).length
  if 3 ≤ quotes && quotes ≤ 5 then
    let kept := List.replicate (quotes - 3) quote
    some (String.ofList (reversed.reverse ++ kept), cs.drop quotes)
  else none

/-- Whether a backslash stands at the end of its line. -/
def continues (cs : List Char) : Bool :=
  (newLine? (skipBlanks cs)).isSome

/-- A string between three quotes.  Behind a backslash at the end of a line blanks and
line breaks are dropped, as long as `dropping` holds. -/
def basicLines (dropping : Bool) (reversed : List Char) : Scan String
  | '"' :: rest =>
      if ('"' :: rest).take 3 = ['"', '"', '"'] then closing? '"' reversed ('"' :: rest)
      else basicLines false ('"' :: reversed) rest
  | '\r' :: '\n' :: rest =>
      if dropping then basicLines true reversed rest
      else basicLines false ('\n' :: reversed) rest
  | '\n' :: rest =>
      if dropping then basicLines true reversed rest
      else basicLines false ('\n' :: reversed) rest
  | '\\' :: 'u' :: a :: b :: c :: d :: rest => do
      basicLines false ((← codePoint? [a, b, c, d]) :: reversed) rest
  | '\\' :: 'U' :: a :: b :: c :: d :: e :: f :: g :: h :: rest => do
      basicLines false ((← codePoint? [a, b, c, d, e, f, g, h]) :: reversed) rest
  | '\\' :: c :: rest =>
      if continues (c :: rest) then basicLines true reversed (c :: rest)
      else do basicLines false ((← escaped? c) :: reversed) rest
  | c :: rest =>
      if dropping && isBlank c then basicLines true reversed rest
      else if isPlain c && c ≠ '\\' then basicLines false (c :: reversed) rest
      else none
  | [] => none

/-- A string between three apostrophes. -/
def literalLines (reversed : List Char) : Scan String
  | '\'' :: rest =>
      if ('\'' :: rest).take 3 = ['\'', '\'', '\''] then closing? '\'' reversed ('\'' :: rest)
      else literalLines ('\'' :: reversed) rest
  | '\r' :: '\n' :: rest => literalLines ('\n' :: reversed) rest
  | '\n' :: rest => literalLines ('\n' :: reversed) rest
  | c :: rest => if isPlain c then literalLines (c :: reversed) rest else none
  | [] => none

/-- A line break directly behind the opening quotes does not count. -/
def dropNewLine (cs : List Char) : List Char :=
  (newLine? cs).getD cs

def string : Scan String
  | '"' :: '"' :: '"' :: rest => basicLines false [] (dropNewLine rest)
  | '\'' :: '\'' :: '\'' :: rest => literalLines [] (dropNewLine rest)
  | '"' :: rest => basic [] rest
  | '\'' :: rest => literal [] rest
  | _ => none

/-!
# Keys
-/

def isBare (c : Char) : Bool :=
  Text.Decimal.isDigit c || ('a' ≤ c && c ≤ 'z') || ('A' ≤ c && c ≤ 'Z') || c = '_' || c = '-'

def simpleKey : Scan String
  | '"' :: rest => basic [] rest
  | '\'' :: rest => literal [] rest
  | cs =>
      let name := cs.takeWhile isBare
      if name.isEmpty then none else some (String.ofList name, cs.drop name.length)

/-- A key of at most so many parts, with dots between them. -/
def keyParts : Nat -> Scan (List String)
  | 0, _ => none
  | most + 1, cs => do
      let (part, rest) ← simpleKey (skipBlanks cs)
      match skipBlanks rest with
      | '.' :: rest => do
          let (parts, rest) ← keyParts most rest
          return (part :: parts, rest)
      | rest => return ([part], rest)

def key : Scan (List String) :=
  keyParts deepest

/-!
# Numbers, dates and times

A word of letters, digits, signs, dots and colons is taken as a whole and then
recognised.
-/

/-- Digits of which `isDigit` tells, with single underscores between them. -/
def digitsOf? (isDigit : Char -> Bool) (cs : List Char) : Option (List Char) :=
  let rec go (reversed : List Char) : List Char -> Option (List Char)
    | [] => some reversed.reverse
    | '_' :: c :: rest => if isDigit c then go (c :: reversed) rest else none
    | c :: rest => if isDigit c then go (c :: reversed) rest else none
  match cs with
  | c :: rest => if isDigit c then go [c] rest else none
  | [] => none

def decimal? (cs : List Char) : Option (List Char) := do
  let ds ← digitsOf? Text.Decimal.isDigit cs
  match ds with
  | '0' :: _ :: _ => none
  | ds => return ds

def inBase? (base : Nat) (cs : List Char) : Option Int := do
  let isDigit := fun c =>
    match Json.Escape.hexValue? c with
    | some d => d < base
    | none => false
  let ds ← digitsOf? isDigit cs
  let values ← ds.mapM Json.Escape.hexValue?
  return (values.foldl (fun n d => base * n + d) 0 : Nat)

def withSign : List Char -> Bool × List Char
  | '-' :: rest => (true, rest)
  | '+' :: rest => (false, rest)
  | cs => (false, cs)

def integerLimit : Int := Nat.pow 2 63

def signed? (cs : List Char) : Option Int := do
  let (negative, ds) := withSign cs
  let n : Int := Text.Decimal.value (← decimal? ds)
  return if negative then -n else n

def integer? (cs : List Char) : Option Int := do
  let i ← match cs with
    | '0' :: 'x' :: rest => inBase? 16 rest
    | '0' :: 'o' :: rest => inBase? 8 rest
    | '0' :: 'b' :: rest => inBase? 2 rest
    | cs => signed? cs
  if -integerLimit ≤ i ∧ i < integerLimit then some i else none

/-- Whether digits and an exponent stand for a number that is not too large. -/
def isBounded (whole fraction : List Char) (exponent : Int) : Bool :=
  let ds := (whole ++ fraction).dropWhile (· = '0')
  let top : Int := ds.length - fraction.length + exponent
  if ds.isEmpty || top < 300 then true
  else if 310 < top then false
  else
    let shift := exponent - fraction.length
    !(Float.ofScientific (Text.Decimal.value ds) (shift < 0) shift.natAbs).isInf

/-- A floating-point number.  A negative one may be too large, a positive one not. -/
def isFloat (cs : List Char) : Bool :=
  let (negative, cs) := withSign cs
  if cs = "inf".toList || cs = "nan".toList then true
  else
    let isMark := fun c => c = 'e' || c = 'E'
    let mantissa := cs.takeWhile fun c => !isMark c
    let exponent : Option (Option Int) :=
      match cs.drop mantissa.length with
      | [] => some none
      | _ :: rest =>
          let (negative, ds) := withSign rest
          (digitsOf? Text.Decimal.isDigit ds).map fun ds =>
            let n : Int := Text.Decimal.value ds
            some (if negative then -n else n)
    let whole := mantissa.takeWhile (· ≠ '.')
    let fraction : Option (Option (List Char)) :=
      match mantissa.drop whole.length with
      | [] => some none
      | _ :: rest => (digitsOf? Text.Decimal.isDigit rest).map some
    match decimal? whole, fraction, exponent with
    | some _, some none, some none => false
    | some whole, some fraction, some exponent =>
        negative || isBounded whole (fraction.getD []) (exponent.getD 0)
    | _, _, _ => false

def twoDigits? : List Char -> Option Nat
  | [a, b] =>
      if Text.Decimal.isDigit a && Text.Decimal.isDigit b then some (Text.Decimal.value [a, b])
      else none
  | _ => none

def isDate : List Char -> Bool
  | [a, b, c, d, '-', e, f, '-', g, h] =>
      match [a, b, c, d].all Text.Decimal.isDigit, twoDigits? [e, f], twoDigits? [g, h] with
      | true, some month, some day =>
          Time.Date.isValid { year := Text.Decimal.value [a, b, c, d], month, day }
      | _, _, _ => false
  | _ => false

def isTime (cs : List Char) : Bool :=
  match cs with
  | a :: b :: ':' :: c :: d :: ':' :: e :: f :: rest =>
      match twoDigits? [a, b], twoDigits? [c, d], twoDigits? [e, f] with
      | some hour, some minute, some second =>
          hour ≤ 23 && minute ≤ 59 && second ≤ 60 &&
            (match rest with
            | [] => true
            | '.' :: ds => !ds.isEmpty && ds.all Text.Decimal.isDigit
            | _ => false)
      | _, _, _ => false
  | _ => false

def isOffset : List Char -> Bool
  | [c] => c = 'Z' || c = 'z'
  | [sign, a, b, ':', c, d] =>
      match sign = '+' || sign = '-', twoDigits? [a, b], twoDigits? [c, d] with
      | true, some hour, some minute => hour ≤ 23 && minute ≤ 59
      | _, _, _ => false
  | _ => false

/-- A date, a time, or both with a mark between them and perhaps an offset. -/
def isDateTime (cs : List Char) : Bool :=
  let date := cs.take 10
  match cs.drop 10 with
  | [] => isDate date || isTime cs
  | mark :: rest =>
      let time := rest.takeWhile fun c => Text.Decimal.isDigit c || c = ':' || c = '.'
      let offset := rest.drop time.length
      isTime cs ||
        (isDate date && (mark = 'T' || mark = 't' || mark = ' ') && isTime time &&
          (offset.isEmpty || isOffset offset))

def isWordChar (c : Char) : Bool :=
  isBare c || c = '+' || c = '.' || c = ':'

/-- The word at the front; a date may be followed by a blank and a time. -/
def word (cs : List Char) : List Char :=
  let first := cs.takeWhile isWordChar
  match cs.drop first.length with
  | ' ' :: c :: rest =>
      if isDate first && Text.Decimal.isDigit c then
        first ++ ' ' :: (c :: rest).takeWhile isWordChar
      else first
  | _ => first

def scalar : Scan Value := fun cs =>
  let w := word cs
  let rest := cs.drop w.length
  if w = "true".toList then some (.flag true, rest)
  else if w = "false".toList then some (.flag false, rest)
  else match integer? w with
    | some i => some (.integer i, rest)
    | none =>
        if isFloat w then some (.float, rest)
        else if isDateTime w then some (.dateTime, rest)
        else none

end Lexeme
end Toml
end CodeSurvey
