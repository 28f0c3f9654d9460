import CodeSurvey.Toml.Lexeme

/-!
# TOML documents

A document is read line by line.  A header opens a table, and a line with a key adds
to the table that was opened last.  No key is given twice and no table is opened twice;
a table that was only passed on the way to another may still be opened, and dotted keys
extend only the tables that dotted keys made.
-/

namespace CodeSurvey
namespace Toml

/-- How a table came to be. -/
inductive Origin where
  /-- On the way of a header to another table. -/
  | passing
  | header
  | dotted
deriving DecidableEq, Repr

/-- A document while it is read: values are closed, tables and lists of tables grow. -/
inductive Node where
  | value (v : Value)
  | table (origin : Origin) (entries : List (String × Node))
  /-- A list of tables, the last one first. -/
  | rows (reversed : List (List (String × Node)))

namespace Node

abbrev Entries :=
  List (String × Node)

def put (key : String) (n : Node) : Entries -> Entries
  | [] => [(key, n)]
  | (k, old) :: rest => if k = key then (k, n) :: rest else (k, old) :: put key n rest

/-- Change the entries of the table at a path below the given entries; tables that are
missing on the way are made.  Of a list of tables the last one is meant.  The change is
told how the table came to be. -/
def alter (dotted : Bool) (change : Origin -> Entries -> Option Entries) :
    List String -> Origin -> Entries -> Option Entries
  | [], origin, entries => change origin entries
  | key :: path, _, entries =>
      match entries.lookup key with
      | none => do
          let origin := if dotted then Origin.dotted else Origin.passing
          let inner ← alter dotted change path origin []
          return put key (.table origin inner) entries
      | some (.value _) => none
      | some (.table origin inner) =>
          if dotted && origin = .header then none
          else do
            let inner ← alter dotted change path origin inner
            return put key (.table origin inner) entries
      | some (.rows []) => none
      | some (.rows (last :: others)) => do
          let last ← alter dotted change path .header last
          return put key (.rows (last :: others)) entries

def addValue (key : String) (v : Value) (entries : Entries) : Option Entries :=
  match entries.lookup key with
  | some _ => none
  | none => some (put key (.value v) entries)

def addDotted (path : List String) (v : Value) (entries : Entries) : Option Entries :=
  match path.getLast? with
  | none => none
  | some key =>
      let tables := path.dropLast
      let change := fun origin entries =>
        if tables.isEmpty || origin = .dotted then addValue key v entries else none
      alter true change tables .header entries

def openTable (path : List String) (entries : Entries) : Option Entries :=
  match path.getLast? with
  | none => none
  | some key =>
      let change := fun _ entries =>
        match entries.lookup key with
        | none => some (put key (.table .header []) entries)
        | some (.table .passing inner) => some (put key (.table .header inner) entries)
        | some _ => none
      alter false change path.dropLast .header entries

def openRow (path : List String) (entries : Entries) : Option Entries :=
  match path.getLast? with
  | none => none
  | some key =>
      let change := fun _ entries =>
        match entries.lookup key with
        | none => some (put key (.rows [[]]) entries)
        | some (.rows reversed) => some (put key (.rows ([] :: reversed)) entries)
        | some _ => none
      alter false change path.dropLast .header entries

mutual

def toValue : Node -> Value
  | .value v => v
  | .table _ entries => .table (entryValues entries)
  | .rows reversed => .array (rowValues reversed [])

def entryValues : List (String × Node) -> List (String × Value)
  | [] => []
  | (key, n) :: rest => (key, toValue n) :: entryValues rest

def rowValues : List (List (String × Node)) -> List Value -> List Value
  | [], values => values
  | entries :: rest, values => rowValues rest (.table (entryValues entries) :: values)

end

end Node

/-!
# Values
-/

namespace Value

/-- The items of an array behind its bracket or a comma; a comma may stand behind the
last one. -/
def arrayItems (item : Scan Value) : Nat -> List Value -> Scan Value
  | 0, _, _ => none
  | fuel + 1, reversed, cs =>
      let skip := fun (cs : List Char) => Lexeme.skipLines cs.length cs
      match skip cs with
      | ']' :: rest => some (.array reversed.reverse, rest)
      | cs => do
          let (v, rest) ← item cs
          match skip rest with
          | ',' :: rest => arrayItems item fuel (v :: reversed) rest
          | ']' :: rest => some (.array (v :: reversed).reverse, rest)
          | _ => none

/-- The entries of a table on one line; no comma stands behind the last one. -/
def tableEntries (item : Scan Value) : Nat -> Node.Entries -> Scan Value
  | 0, _, _ => none
  | fuel + 1, entries, cs => do
      let (path, rest) ← Lexeme.key cs
      match Lexeme.skipBlanks rest with
      | '=' :: rest => do
          let (v, rest) ← item (Lexeme.skipBlanks rest)
          let entries ← Node.addDotted path v entries
          match Lexeme.skipBlanks rest with
          | ',' :: rest => tableEntries item fuel entries rest
          | '\x7d' :: rest => some (.table (Node.entryValues entries), rest)
          | _ => none
      | _ => none

def scanPlain : Scan Value := fun cs =>
  match cs with
  | '"' :: _ | '\'' :: _ => (Lexeme.string cs).map fun (s, rest) => (.text s, rest)
  | cs => Lexeme.scalar cs

/-- A value in which at most `depth` arrays and tables stand inside each other. -/
def scan : Nat -> Scan Value
  | 0, cs => scanPlain cs
  | depth + 1, cs =>
      match cs with
      | '[' :: rest => arrayItems (scan depth) cs.length [] rest
      | '\x7b' :: rest =>
          match Lexeme.skipBlanks rest with
          | '\x7d' :: rest => some (.table [], rest)
          | rest => tableEntries (scan depth) cs.length [] rest
      | cs => scanPlain cs

end Value

/-!
# Lines
-/

/-- The tables read so far and the path of the one that is open. -/
structure Reading where
  entries : Node.Entries
  current : List String

namespace Reading

def header (r : Reading) (cs : List Char) : Option (Reading × List Char) :=
  match cs with
  | '[' :: rest => do
      let (path, rest) ← Lexeme.key rest
      match rest with
      | ']' :: ']' :: rest => do
          let entries ← Node.openRow path r.entries
          return ({ entries, current := path }, rest)
      | _ => none
  | cs => do
      let (path, rest) ← Lexeme.key cs
      match rest with
      | ']' :: rest => do
          let entries ← Node.openTable path r.entries
          return ({ entries, current := path }, rest)
      | _ => none

def keyValue (r : Reading) (cs : List Char) : Option (Reading × List Char) := do
  let (path, rest) ← Lexeme.key cs
  match rest with
  | '=' :: rest => do
      let (v, rest) ← Value.scan deepest (Lexeme.skipBlanks rest)
      let add := fun _ entries => Node.addDotted path v entries
      let entries ← Node.alter false add r.current .header r.entries
      return ({ r with entries }, rest)
  | _ => none

/-- At most `fuel` lines. -/
def lines : Nat -> Reading -> List Char -> Option Reading
  | 0, _, _ => none
  | fuel + 1, r, cs =>
      match Lexeme.skipLines cs.length cs with
      | [] => some r
      | '[' :: rest => do
          let (r, rest) ← r.header rest
          lines fuel r (← Lexeme.endOfLine? rest)
      | cs => do
          let (r, rest) ← r.keyValue cs
          lines fuel r (← Lexeme.endOfLine? rest)

end Reading

/-- Read a document; a byte order mark in front does not count. -/
def Value.parse (s : String) : Except Fault Value :=
  let cs :=
    match s.toList with
    | '\ufeff' :: rest => rest
    | cs => cs
  match Reading.lines (cs.length + 1) { entries := [], current := [] } cs with
  | some r => .ok (.table (Node.entryValues r.entries))
  | none => .error .malformed

end Toml
end CodeSurvey
