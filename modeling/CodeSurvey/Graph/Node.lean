import CodeSurvey.Graph.Import
import CodeSurvey.Graph.PathSet
import CodeSurvey.Time.Stamp

/-!
# Modules and edges

A module of the graph has been analysed, or it is a placeholder: known only because
another module imports it.  An edge records one import that was resolved.
-/

namespace CodeSurvey
namespace Graph

namespace PathSet

def encode (s : PathSet) : Json.Value :=
  .list .text s.toList

def decode : Json.Reader PathSet := fun o =>
  (Json.Reader.list Json.Reader.text o).map ofList

end PathSet

structure Node where
  path : String
  imports : List Import
  exports : List Export
  dependencies : PathSet
  dependents : PathSet
  analyzed : Bool
  analyzedAt : Option Time.Instant
deriving DecidableEq, Repr

namespace Node

def placeholder (path : String) : Node :=
  { path, imports := [], exports := [], dependencies := ∅, dependents := ∅
    analyzed := false, analyzedAt := none }

def encodeInstant (t : Time.Instant) : Json.Value :=
  .text (Time.Stamp.zulu t)

def decodeInstant : Json.Reader Time.Instant := fun o => do
  let s ← Json.Reader.text o
  match Time.Stamp.ofText? s with
  | some t => return t
  | none => .error .mismatch

def encode (n : Node) : Json.Value :=
  .object
    [("path", .text n.path),
     ("imports", .list Import.encode n.imports),
     ("exports", .list Export.encode n.exports),
     ("dependencies", n.dependencies.encode),
     ("dependents", n.dependents.encode),
     ("analyzed", .flag n.analyzed),
     ("analyzedAt", .option encodeInstant n.analyzedAt)]

def fields : Record.Fields Json.Outline Node :=
  Record.Fields.pure Node.mk
    |>.apply (.required "path" Json.Reader.text)
    |>.apply (.required "imports" (Json.Reader.list Import.decode))
    |>.apply (.required "exports" (Json.Reader.list Export.decode))
    |>.apply (.required "dependencies" PathSet.decode)
    |>.apply (.required "dependents" PathSet.decode)
    |>.apply (.required "analyzed" Json.Reader.flag)
    |>.apply (.optional "analyzedAt" decodeInstant)

def decode : Json.Reader Node :=
  fields.read

end Node

structure Edge where
  source : String
  target : String
  via : Import
deriving DecidableEq, Repr

namespace Edge

def encode (e : Edge) : Json.Value :=
  .object
    [("from", .text e.source),
     ("to", .text e.target),
     ("import", e.via.encode)]

def fields : Record.Fields Json.Outline Edge :=
  Record.Fields.pure Edge.mk
    |>.apply (.required "from" Json.Reader.text)
    |>.apply (.required "to" Json.Reader.text)
    |>.apply (.required "import" Import.decode)

def decode : Json.Reader Edge :=
  fields.read

end Edge
end Graph
end CodeSurvey
