import CodeSurvey.Text.Printable

/-!
# Quoted text

A text inside a message is written between double quotes.  Six characters have a
short escape, a character that would not be seen is written by its code point
(`\u{e9}` has the form backslash, `u`, and the hexadecimal digits in braces), and
every other character stands for itself.
-/

namespace CodeSurvey
namespace Text
namespace Quoted

def hexDigit (d : Nat) : Char :=
  if d < 10 then Char.ofNat ('0'.toNat + d) else Char.ofNat ('a'.toNat + (d - 10))

def hexDigits (n : Nat) : List Char :=
  if n < 16 then [hexDigit n] else hexDigits (n / 16) ++ [hexDigit (n % 16)]
termination_by n
decreasing_by omega

/-- The letter behind the backslash, for the characters that have a short escape. -/
def letter? : Char -> Option Char
  | '\x00' => some '0'
  | '\t' => some 't'
  | '\n' => some 'n'
  | '\r' => some 'r'
  | '"' => some '"'
  | '\\' => some '\\'
  | _ => none

def codePoint (c : Char) : List Char :=
  ['\\', 'u', '\x7b'] ++ hexDigits c.toNat ++ ['\x7d']

def encodeChar (c : Char) : List Char :=
  match letter? c with
  | some l => ['\\', l]
  | none => if Printable.isShown c then [c] else codePoint c

def encode (cs : List Char) : List Char :=
  cs.flatMap encodeChar

def text (s : String) : String :=
  String.ofList ('"' :: encode s.toList ++ ['"'])

end Quoted
end Text
end CodeSurvey
