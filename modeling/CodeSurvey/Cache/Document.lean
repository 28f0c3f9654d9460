import CodeSurvey.Cache.Basic
import CodeSurvey.Error
import CodeSurvey.Json.Printer
import CodeSurvey.Time.Stamp

/-!
# Cache documents

A cache is kept in a file as a document: a version, the time of writing, and the live
entries from the least to the most recently used one, so that adding them in the order
of the document restores their order of use.
-/

namespace CodeSurvey
namespace Cache

/-- Sizes and hits are below this. -/
def countLimit : Nat := Nat.pow 2 64

/-- Time stamps are signed words of 64 bits. -/
def timeLimit : Int := Nat.pow 2 63

namespace Entry

def encode (form : Form v) (e : Entry v) : Json.Value :=
  .object
    [("key", .text e.key),
     ("value", form.encode e.value),
     ("size", .nat e.size),
     ("hits", .nat e.hits),
     ("timestamp", .int e.timestamp)]

def fields (form : Form v) : Record.Fields Json.Outline (Entry v) :=
  Record.Fields.pure Entry.mk
    |>.apply (.required "key" Json.Reader.text)
    |>.apply (.required "value" form.decode)
    |>.apply (.required "size" (.below countLimit))
    |>.apply (.required "hits" (.below countLimit))
    |>.apply (.required "timestamp" (Json.Reader.integer (-timeLimit) timeLimit))

def decode (form : Form v) : Json.Reader (Entry v) :=
  (fields form).read

end Entry

structure Document (v : Type) where
  version : String
  createdAt : String
  entries : List (Entry v)
deriving DecidableEq, Repr

namespace Document

def encode (form : Form v) (d : Document v) : Json.Value :=
  .object
    [("version", .text d.version),
     ("createdAt", .text d.createdAt),
     ("entries", .list (Entry.encode form) d.entries)]

def fields (form : Form v) : Record.Fields Json.Outline (Document v) :=
  Record.Fields.pure Document.mk
    |>.apply (.required "version" Json.Reader.text)
    |>.apply (.required "createdAt" Json.Reader.text)
    |>.apply (.required "entries" (Json.Reader.list (Entry.decode form)))

def decode (form : Form v) : Json.Reader (Document v) :=
  (fields form).read

def text (form : Form v) (d : Document v) : String :=
  (d.encode form).pretty

/-- Read the text of a file.  The version is looked at before the rest. -/
def parse (form : Form v) (path : String) (content : String) : Except Error (Document v) := do
  let document := fun (fault : Fault) => Error.json (.ofFault fault)
  let raw ← (Json.Value.parse content).mapError document
  match raw.member? "version" >>= Json.Value.text? with
  | none => .error (.invalidFormat (path ++ ": missing version"))
  | some version =>
      if version = documentVersion then
        (Json.Reader.readValue (decode form) raw).mapError document
      else .error (.unsupportedVersion version)

end Document

def document (c : Cache v) (now : Int) : Document v :=
  { version := documentVersion
    createdAt := Time.Stamp.offset (.ofMillis now)
    entries := (c.entries now).reverse }

/-- The file to use: the one asked for, or the one of the options. -/
def resolvePath (c : Cache v) (path : Option String) : Except Error String :=
  match path.or c.options.persistPath with
  | some path => .ok path
  | none => .error .noPersistPath

def fileError (cause : Files.PathError) : Error :=
  .file (.ofCause cause)

/-- Write the live entries to a file, and say so.  The directory of the file is made
even when the file cannot be written, so the tree is given back in any case. -/
def persist (c : Cache v) (form : Form v) (now : Int) (tree : Files.Tree)
    (path : Option String) : Log.Outcome Files.Tree (Except Error Unit) :=
  match c.resolvePath path with
  | .error e => .quiet tree (.error e)
  | .ok path =>
      let document := c.document now
      match tree.writeBelow path (document.text form).toUTF8 with
      | (tree, some cause) => .quiet tree (.error (fileError cause))
      | (tree, none) =>
          { state := tree
            result := .ok ()
            log :=
              [.info "cache persisted"
                [("path", .text path), ("entries", .nat document.entries.length)]] }

/-!
# Merging a document
-/

/-- Add an entry of a document: it replaces a stored one and is the most recently used
one from then on. -/
def merge (c : Cache v) (e : Entry v) : Log.Outcome (Cache v) Unit :=
  match c.find? e.key with
  | some _ => .quiet { c with stored := e :: c.without e.key } ()
  | none => c.insertNew e

def mergeAll (c : Cache v) (entries : List (Entry v)) : Log.Outcome (Cache v) Unit :=
  entries.foldl
    (fun o e =>
      let next := o.state.merge e
      { state := next.state, result := (), log := o.log ++ next.log })
    (.quiet c ())

/-- The document in a file, with the path of the file. -/
def readDocument (c : Cache v) (form : Form v) (tree : Files.Tree) (path : Option String) :
    Except Error (String × Document v) := do
  let path ← c.resolvePath path
  let content ← (tree.readText path).mapError fileError
  let document ← Document.parse form path content
  return (path, document)

/-- Add the live entries of a file.  The cache stays as it is when the file cannot be
used. -/
def load (c : Cache v) (form : Form v) (now : Int) (tree : Files.Tree)
    (path : Option String) : Log.Outcome (Cache v) (Except Error Nat) :=
  match c.readDocument form tree path with
  | .error e => .quiet c (.error e)
  | .ok (path, document) =>
      let live := document.entries.filter fun e => !isExpired c.options now e
      let skipped := document.entries.length - live.length
      let merged := c.mergeAll live
      { state := merged.state
        result := .ok live.length
        log := merged.log ++
          [.info "cache loaded"
            [("path", .text path), ("loaded", .nat live.length), ("skipped", .nat skipped)]] }

end Cache
end CodeSurvey
