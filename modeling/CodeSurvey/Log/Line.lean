import CodeSurvey.Json.Printer
import CodeSurvey.Log.Entry
import CodeSurvey.Text.Quoted
import CodeSurvey.Time.Stamp

/-!
# Lines of a log

An entry is written on a line, with the time and the level in front: as plain text, or
as a JSON object, which may name the source of the entry.  A message in plain text must
not command the terminal that shows it.
-/

namespace CodeSurvey
namespace Log

def Detail.encode : Detail -> Json.Value
  | .text s => .text s
  | .integer i => .int i
  | .flag b => .flag b

def Detail.plain : Detail -> String
  | .text s => s
  | .integer i => (Json.Value.int i).compact
  | .flag b => (Json.Value.flag b).compact

namespace Line

def padded (l : Level) : String :=
  if l.name.length < 5 then " " ++ l.name else l.name

/-- Characters below U+0080 that terminals obey. -/
def commands : List Char :=
  ['\x07', '\x08', '\x0c', '\x1b', '\x7f']

/-- A character of a message; what a terminal would obey is given by its number. -/
def shown (c : Char) : List Char :=
  if commands.contains c then
    ['\\', 'x', Text.Quoted.hexDigit (c.toNat / 16), Text.Quoted.hexDigit (c.toNat % 16)]
  else if 0x80 ≤ c.toNat && c.toNat < 0xA0 then Text.Quoted.codePoint c
  else [c]

def message (e : Entry) : String :=
  String.ofList (e.message.toList.flatMap shown)

def plain (now : Time.Instant) (e : Entry) : String :=
  let details := e.details.map fun (name, detail) => " " ++ name ++ "=" ++ detail.plain
  Time.Stamp.micros now ++ " " ++ padded e.level ++ " " ++ message e ++ String.join details

def json (source : Option String) (now : Time.Instant) (e : Entry) : String :=
  let details := e.details.map fun (name, detail) => (name, detail.encode)
  let target := source.toList.map fun s => ("target", Json.Value.text s)
  (Json.Value.object
    ([("timestamp", .text (Time.Stamp.micros now)),
      ("level", .text e.level.name),
      ("fields", .object (("message", .text e.message) :: details))] ++ target)).compact

end Line
end Log
end CodeSurvey
