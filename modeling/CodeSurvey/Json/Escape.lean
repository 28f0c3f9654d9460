import CodeSurvey.Text.Quoted

/-!
# Strings of a JSON text

Inside a string only the quote, the backslash and the characters below U+0020 are
escaped: seven of them by a letter, the others by four lower-case hexadecimal
digits.  Every other character stands for itself.
-/

namespace CodeSurvey
namespace Json
namespace Escape

/-- The letter behind the backslash, for the characters that have one. -/
def letter? : Char -> Option Char
  | '"' => some '"'
  | '\\' => some '\\'
  | '\x08' => some 'b'
  | '\x0c' => some 'f'
  | '\n' => some 'n'
  | '\r' => some 'r'
  | '\t' => some 't'
  | _ => none

def hexDigitOf (n place : Nat) : Char :=
  Text.Quoted.hexDigit (n / Nat.pow 16 place % 16)

/-- A 16-bit unit as backslash, `u` and four hexadecimal digits. -/
def unit (n : Nat) : List Char :=
  ['\\', 'u', hexDigitOf n 3, hexDigitOf n 2, hexDigitOf n 1, hexDigitOf n 0]

def encodeChar (c : Char) : List Char :=
  match letter? c with
  | some l => ['\\', l]
  | none => if c.toNat < 0x20 then unit c.toNat else [c]

def encode (cs : List Char) : List Char :=
  cs.flatMap encodeChar

def quoted (cs : List Char) : List Char :=
  '"' :: encode cs ++ ['"']

def unletter? : Char -> Option Char
  | '"' => some '"'
  | '\\' => some '\\'
  | '/' => some '/'
  | 'b' => some '\x08'
  | 'f' => some '\x0c'
  | 'n' => some '\n'
  | 'r' => some '\r'
  | 't' => some '\t'
  | _ => none

def hexValue? (c : Char) : Option Nat :=
  if '0' ≤ c && c ≤ '9' then some (c.toNat - '0'.toNat)
  else if 'a' ≤ c && c ≤ 'f' then some (c.toNat - 'a'.toNat + 10)
  else if 'A' ≤ c && c ≤ 'F' then some (c.toNat - 'A'.toNat + 10)
  else none

end Escape
end Json
end CodeSurvey
