import CodeSurvey.Text.Blank
import CodeSurvey.Text.Decimal
import CodeSurvey.Time.Calendar
import CodeSurvey.Time.Instant

/-!
# Time stamps

A time stamp is the date and the time of day of a point in time, in UTC, with as many
digits of a second as its writer asks for.  Years before 0 and after 9999 carry a
sign.
-/

namespace CodeSurvey
namespace Time
namespace Stamp

def secondsPerDay : Int := 86400

/-- Years are written with four digits; outside 0 to 9999 with a sign in front. -/
def yearChars (year : Int) : List Char :=
  if 0 ≤ year ∧ year ≤ 9999 then Text.Decimal.padded 4 year.toNat
  else if year < 0 then '-' :: Text.Decimal.padded 4 year.natAbs
  else '+' :: Text.Decimal.padded 4 year.natAbs

def dateChars (d : Date) : List Char :=
  yearChars d.year ++ '-' :: Text.Decimal.padded 2 d.month ++ '-' :: Text.Decimal.padded 2 d.day

def date (t : Instant) : Date :=
  Date.ofDays (t.seconds.fdiv secondsPerDay)

/-- Hours, minutes and seconds; a leap second is written as second 60. -/
def clockChars (t : Instant) : List Char :=
  let ofDay := (t.seconds.fmod secondsPerDay).toNat
  let second := ofDay % 60 + (if t.nanos ≥ Instant.nanosPerSecond then 1 else 0)
  Text.Decimal.padded 2 (ofDay / 3600) ++ ':' :: Text.Decimal.padded 2 (ofDay / 60 % 60) ++
    ':' :: Text.Decimal.padded 2 second

/-- The fraction of the second: 0, 3, 6 or 9 digits, as many as needed. -/
def fractionChars (t : Instant) : List Char :=
  let nanos := t.nanos % Instant.nanosPerSecond
  if nanos = 0 then []
  else if nanos % 1000000 = 0 then '.' :: Text.Decimal.padded 3 (nanos / 1000000)
  else if nanos % 1000 = 0 then '.' :: Text.Decimal.padded 6 (nanos / 1000)
  else '.' :: Text.Decimal.padded 9 nanos

def chars (fraction : Instant -> List Char) (zone : List Char) (t : Instant) : List Char :=
  dateChars (date t) ++ 'T' :: clockChars t ++ fraction t ++ zone

/-- With `Z` for the zone. -/
def zulu (t : Instant) : String :=
  String.ofList (chars fractionChars ['Z'] t)

/-- With the offset of the zone, which is zero. -/
def offset (t : Instant) : String :=
  String.ofList (chars fractionChars ['+', '0', '0', ':', '0', '0'] t)

def micros (t : Instant) : String :=
  let fraction := fun (t : Instant) =>
    '.' :: Text.Decimal.padded 6 (t.nanos % Instant.nanosPerSecond / 1000)
  String.ofList (chars fraction ['Z'] t)

def day (t : Instant) : String :=
  String.ofList (dateChars (date t))

/-!
# Reading

A reader accepts more than is written: blanks around the parts, short numbers, a
blank or a small letter between date and time, any fraction, and any offset of less
than a day.
-/

abbrev Scan (a : Type) :=
  List Char -> Option (a × List Char)

/-- At least one digit and at most `width`. -/
def number (width : Nat) : Scan Nat := fun cs =>
  let ds := (cs.take width).takeWhile Text.Decimal.isDigit
  if ds.isEmpty then none else some (Text.Decimal.value ds, cs.drop ds.length)

def bounded (low high : Nat) : Scan Nat := fun cs => do
  let (n, rest) ← number 2 (Text.Blank.trimStart cs)
  if low ≤ n ∧ n ≤ high then some (n, rest) else none

/-- A year behind blanks: up to four digits, or any number of them behind a sign. -/
def year : Scan Int := fun cs =>
  match Text.Blank.trimStart cs with
  | '-' :: rest => (number rest.length rest).map fun (n, rest) => (-(n : Int), rest)
  | '+' :: rest => (number rest.length rest).map fun (n, rest) => ((n : Int), rest)
  | cs => (number 4 cs).map fun (n, rest) => ((n : Int), rest)

def mark (c : Char) (cs : List Char) : Option (List Char) :=
  match Text.Blank.trimStart cs with
  | d :: rest => if d = c then some rest else none
  | [] => none

def separator : List Char -> Option (List Char)
  | 'T' :: rest | 't' :: rest | ' ' :: rest => some rest
  | _ => none

/-- The digits behind the point of a second, of which nine count. -/
def fraction : Scan Nat
  | '.' :: rest =>
      let ds := rest.takeWhile Text.Decimal.isDigit
      let counted := ds.take 9
      if ds.isEmpty then none
      else some (Text.Decimal.value counted * Nat.pow 10 (9 - counted.length), rest.drop ds.length)
  | cs => some (0, cs)

def twoDigits (high : Nat) : Scan Nat
  | a :: b :: rest =>
      if Text.Decimal.isDigit a && Text.Decimal.isDigit b then
        let n := Text.Decimal.value [a, b]
        if n ≤ high then some (n, rest) else none
      else none
  | _ => none

def offsetSign? : Char -> Option Int
  | '+' => some 1
  | '-' | '−' => some (-1)
  | _ => none

/-- The offset of the zone from UTC in seconds. -/
def zone : Scan Int := fun cs =>
  match Text.Blank.trimStart cs with
  | 'Z' :: rest | 'z' :: rest => some (0, rest)
  | c :: rest =>
      if ((c :: rest).take 3).map Char.toUpper = ['U', 'T', 'C'] then some (0, rest.drop 2)
      else do
        let sign ← offsetSign? c
        let (hours, rest) ← twoDigits 99 rest
        let rest := rest.dropWhile fun c => c = ':' || Text.Blank.isBlank c
        let (minutes, rest) ← twoDigits 59 rest
        some (sign * (hours * 3600 + minutes * 60 : Nat), rest)
  | [] => none

/-- The years that a time stamp may have. -/
def yearInRange (y : Int) : Bool :=
  -262143 ≤ y && y ≤ 262142

def read? (cs : List Char) : Option Instant := do
  let (y, cs) ← year cs
  let cs ← mark '-' cs
  let (month, cs) ← bounded 1 12 cs
  let cs ← mark '-' cs
  let (day, cs) ← bounded 1 31 cs
  let cs ← separator cs
  let (hour, cs) ← bounded 0 23 cs
  let cs ← mark ':' cs
  let (minute, cs) ← bounded 0 59 cs
  let cs ← mark ':' cs
  let (second, cs) ← bounded 0 60 cs
  let (nanos, cs) ← fraction cs
  let (shift, cs) ← zone cs
  let d : Date := { year := y, month, day }
  if (Text.Blank.trimStart cs).isEmpty && d.isValid && yearInRange y && shift.natAbs < 86400 then
    let leap := second = 60
    let clock := hour * 3600 + minute * 60 + (if leap then 59 else second)
    let t : Instant :=
      { seconds := d.days * secondsPerDay + clock - shift
        nanos := if leap then Instant.nanosPerSecond + nanos else nanos }
    if yearInRange (date t).year then some t else none
  else none

def ofText? (s : String) : Option Instant :=
  read? s.toList

end Stamp
end Time
end CodeSurvey
