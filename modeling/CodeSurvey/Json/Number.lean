import CodeSurvey.Number.Shortest

/-!
# Numbers of a JSON document

A number without fraction and exponent that fits 64 bits is an integer, every
other number is a floating-point number.  The two stay apart: `1` and `1.0` are
different values with different texts.
-/

namespace CodeSurvey
namespace Json

inductive Number where
  | integer (value : Int)
  | float (value : Float)
deriving DecidableEq, Repr

namespace Number

def chars : Number -> List Char
  | .integer i => Text.Decimal.signed i
  | .float x => CodeSurvey.Number.Shortest.chars x

/-!
# Reading

The digits in front of the exponent are collected into one significand for as long
as it fits 64 bits.  A digit in front of the point that does not fit is dropped and
raises the exponent; the first digit behind the point that does not fit ends the
significand.  The value is the significand, rounded, times or divided by one power
of ten, rounded again.
-/

structure Literal where
  negative : Bool
  whole : List Char
  fraction : List Char
  /-- The sign (whether it is a minus) and the digits of the exponent. -/
  exponent : Option (Bool × List Char)
deriving DecidableEq, Repr

def wordLimit : Nat := Nat.pow 2 64

/-- Extend a significand by the leading digits that keep it within 64 bits; the
digits left over come second. -/
def absorb (significand : Nat) : List Char -> Nat × List Char
  | [] => (significand, [])
  | c :: rest =>
      let next := 10 * significand + Text.Decimal.digitValue c
      if next < wordLimit then absorb next rest else (significand, c :: rest)

/-- Divide by a power of ten that need not be a floating-point number itself. -/
def divideByPower (x : Float) (power : Nat) : Float :=
  if power ≤ 308 then x / Float.ofScientific 1 false power
  else if x == 0 then x
  else divideByPower (x / Float.ofScientific 1 false 308) (power - 308)
termination_by power
decreasing_by omega

/-- Significand times a power of ten; nothing when the value is too large. -/
def scaled? (significand : Nat) (exponent : Int) : Option Float :=
  let x := Float.ofNat significand
  if exponent < 0 then
    some (divideByPower x exponent.natAbs)
  else if exponent ≤ 308 then
    let y := x * Float.ofScientific 1 false exponent.toNat
    if y.isInf then none else some y
  else if significand = 0 then some x
  else none

def exponentLimit : Nat := Nat.pow 2 31

def withSign (negative : Bool) (x : Float) : Float :=
  if negative then -x else x

namespace Literal

def float? (l : Literal) (significand : Nat) (shift : Int) : Option Float :=
  match l.exponent with
  | none => (scaled? significand shift).map (withSign l.negative)
  | some (minus, ds) =>
      let power := Text.Decimal.value ds
      if power < exponentLimit then
        let exponent := if minus then shift - power else shift + power
        (scaled? significand exponent).map (withSign l.negative)
      else if significand ≠ 0 ∧ ¬ minus then none
      else some (withSign l.negative 0)

/-- The number a literal stands for; nothing when it is too large. -/
def number? (l : Literal) : Option Number :=
  let (whole, dropped) := absorb 0 l.whole
  match l.fraction, l.exponent, dropped with
  | [], none, [] =>
      if ¬ l.negative then some (.integer whole)
      else if whole = 0 ∨ Nat.pow 2 63 < whole then some (.float (-(Float.ofNat whole)))
      else some (.integer (-(whole : Int)))
  | _, _, _ =>
      let (significand, unread) := absorb whole l.fraction
      let shift : Int := dropped.length - (l.fraction.length - unread.length : Nat)
      (l.float? significand shift).map .float

def ofChars (cs : List Char) : Literal :=
  let (negative, cs) :=
    match cs with
    | '-' :: rest => (true, rest)
    | _ => (false, cs)
  let whole := cs.takeWhile Text.Decimal.isDigit
  let rest := cs.dropWhile Text.Decimal.isDigit
  let (fraction, rest) :=
    match rest with
    | '.' :: rest => (rest.takeWhile Text.Decimal.isDigit, rest.dropWhile Text.Decimal.isDigit)
    | _ => ([], rest)
  let exponent :=
    match rest with
    | _ :: '-' :: ds => some (true, ds)
    | _ :: '+' :: ds => some (false, ds)
    | _ :: ds => some (false, ds)
    | [] => none
  { negative, whole, fraction, exponent }

end Literal
end Number
end Json
end CodeSurvey
