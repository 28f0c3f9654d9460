import CodeSurvey.Json.Escape
import CodeSurvey.Text.Decimal
import CodeSurvey.Yaml.Cursor

/-!
# Words of YAML

Names of anchors, tags, and what stands in a directive.  A tag is written with the
characters of an address; any other character is given by the octets of its form in
UTF-8, each as a percent sign and two hexadecimal digits.
-/

namespace CodeSurvey
namespace Yaml
namespace Word

def isLetter (c : Char) : Bool :=
  c.isAlphanum || c = '_' || c = '-'

def isTagChar (c : Char) : Bool :=
  isLetter c || ";/?:@&=+$.!~*'()%".toList.contains c

def isWideTagChar (c : Char) : Bool :=
  isTagChar c || c = ',' || c = '[' || c = ']'

/-- The characters of a kind in front of the cursor, and what stands behind them. -/
def span (p : Char -> Bool) (c : Cursor) : String × Cursor :=
  let cs := c.rest.takeWhile p
  (String.ofList cs, c.advanceBy cs.length)

/-!
# Octets
-/

def octet? : List Char -> Option (Nat × List Char)
  | '%' :: a :: b :: rest => do
      return (16 * (← Json.Escape.hexValue? a) + (← Json.Escape.hexValue? b), rest)
  | _ => none

/-- The bits that the first octet of a character holds, and how many octets follow. -/
def leading? (octet : Nat) : Option (Nat × Nat) :=
  if octet < 0x80 then some (octet, 0)
  else if octet < 0xC0 then none
  else if octet < 0xE0 then some (octet - 0xC0, 1)
  else if octet < 0xF0 then some (octet - 0xE0, 2)
  else if octet < 0xF8 then some (octet - 0xF0, 3)
  else none

def following? : Nat -> Nat -> List Char -> Option (Nat × List Char)
  | 0, code, cs => some (code, cs)
  | n + 1, code, cs => do
      let (octet, rest) ← octet? cs
      if octet / 64 = 2 then following? n (64 * code + octet % 64) rest else none

/-- What stands for an octet sequence that is no character, or not its shortest form. -/
def replacement : Char :=
  '\ufffd'

def character (code more : Nat) : Char :=
  if (more ≠ 0 && code < 0x80) || !Nat.isValidChar code then replacement else Char.ofNat code

/-- A text in which characters are given by octets.  Every step takes a character. -/
def unescape? : Nat -> List Char -> Option (List Char)
  | _, [] => some []
  | 0, _ => none
  | fuel + 1, '%' :: cs => do
      let (octet, rest) ← octet? ('%' :: cs)
      let (bits, more) ← leading? octet
      let (code, rest) ← following? more bits rest
      return character code more :: (← unescape? fuel rest)
  | fuel + 1, c :: cs => do return c :: (← unescape? fuel cs)

def tagName? (written : String) : Option String := do
  let cs ← unescape? written.length written.toList
  return String.ofList (cs.takeWhile (· ≠ '\x00'))

/-!
# Anchors and tags
-/

def anchorName (c : Cursor) : Option (String × Cursor) :=
  let (name, c) := span isLetter c
  let ended := Cursor.endsWord (c.peek 0) || (c.peek 0).any "?:,]\x7d%@\x60".toList.contains
  if name = "" || !ended then none else some (name, c)

def handle? (c : Cursor) : Option (String × Cursor) :=
  if c.at? '!' then
    let (word, behind) := span isLetter c.advance
    if behind.at? '!' then some ("!" ++ word ++ "!", behind.advance)
    else none
  else none

/-- A tag that is written in full, between angle brackets. -/
def fullTag (c : Cursor) : Option (String × String × Cursor) := do
  let (written, c) := span isWideTagChar (c.advanceBy 2)
  if written = "" || !c.at? '>' then none
  else return ("", ← tagName? written, c.advance)

def shortTag (c : Cursor) : Option (String × String × Cursor) :=
  match handle? c with
  | some (handle, c) => do
      let (written, c) := span isTagChar c
      if written = "" then none else return (handle, ← tagName? written, c)
  | none => do
      let (written, c) := span isTagChar c.advance
      let name ← tagName? written
      return if name = "" then ("", "!", c) else ("!", name, c)

/-- A tag: a handle, which is empty in front of a full name, and the name behind it. -/
def tag (inFlow : Bool) (c : Cursor) : Option (String × String × Cursor) := do
  let (handle, name, c) ← if c.peek 1 = some '<' then fullTag c else shortTag c
  if (inFlow && c.at? ',') || Cursor.endsWord (c.peek 0) then return (handle, name, c)
  else none

/-!
# Directives
-/

/-- A handle and what it stands for. -/
def handleMeaning (c : Cursor) : Option (String × String × Cursor) := do
  let (handle, c) ← (handle? c).or (if c.at? '!' then some ("!", c.advance) else none)
  if !c.atBlank then none
  else
    let (written, c) := span isWideTagChar (span Cursor.isBlank c).2
    if written = "" || !Cursor.endsWord (c.peek 0) then none
    else return (handle, ← tagName? written, c)

def longestNumber : Nat := 9

def versionNumber (c : Cursor) : Option (Nat × Cursor) :=
  let ds := c.rest.takeWhile Text.Decimal.isDigit
  if ds.isEmpty || longestNumber < ds.length then none
  else some (Text.Decimal.value ds, c.advanceBy ds.length)

/-- A version: two numbers with a dot between them. -/
def version (c : Cursor) : Option ((Nat × Nat) × Cursor) := do
  let (major, c) ← versionNumber c
  if !c.at? '.' then none
  else
    let (minor, c) ← versionNumber c.advance
    return ((major, minor), c)

def isSupported (version : Nat × Nat) : Bool :=
  version = (1, 1) || version = (1, 2)

def supportedVersion (c : Cursor) : Option Cursor := do
  let (found, c) ← version c
  if isSupported found then return c else none

end Word
end Yaml
end CodeSurvey
