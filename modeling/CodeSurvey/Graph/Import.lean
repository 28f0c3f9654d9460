import CodeSurvey.Json.Reader

/-!
# Imports and exports of a module

What the analysis of a source file records about the names it takes from other
modules and the names it offers to them.
-/

namespace CodeSurvey
namespace Graph

inductive ImportKind where
  | static
  | dynamic
  | require
  /-- A type-only import, erased before the program runs. -/
  | typeOnly
deriving DecidableEq, Repr

namespace ImportKind

def name : ImportKind -> String
  | .static => "static"
  | .dynamic => "dynamic"
  | .require => "require"
  | .typeOnly => "type"

def names : List (String × ImportKind) :=
  [static, dynamic, require, typeOnly].map fun k => (k.name, k)

def encode (k : ImportKind) : Json.Value :=
  .text k.name

def decode : Json.Reader ImportKind :=
  Json.Reader.oneOf names

end ImportKind

inductive ExportKind where
  | named
  | default
  /-- A name of another module, offered again. -/
  | reExport
  /-- All names of another module. -/
  | everything
  | typeOnly
deriving DecidableEq, Repr

namespace ExportKind

def name : ExportKind -> String
  | .named => "named"
  | .default => "default"
  | .reExport => "reExport"
  | .everything => "namespace"
  | .typeOnly => "type"

def names : List (String × ExportKind) :=
  [named, default, reExport, everything, typeOnly].map fun k => (k.name, k)

def encode (k : ExportKind) : Json.Value :=
  .text k.name

def decode : Json.Reader ExportKind :=
  Json.Reader.oneOf names

end ExportKind

/-- Line and column numbers are below this. -/
def positionLimit : Nat := Nat.pow 2 32

structure Import where
  source : String
  resolved : Option String
  specifiers : List String
  kind : ImportKind
  sideEffectOnly : Bool
  line : Nat
  column : Nat
deriving DecidableEq, Repr

namespace Import

def ofSource (source : String) : Import :=
  { source, resolved := none, specifiers := [], kind := .static
    sideEffectOnly := false, line := 0, column := 0 }

def encode (i : Import) : Json.Value :=
  .object
    [("source", .text i.source),
     ("resolvedPath", .option .text i.resolved),
     ("specifiers", .list .text i.specifiers),
     ("type", i.kind.encode),
     ("sideEffectOnly", .flag i.sideEffectOnly),
     ("line", .nat i.line),
     ("column", .nat i.column)]

def fields : Record.Fields Json.Outline Import :=
  Record.Fields.pure Import.mk
    |>.apply (.required "source" Json.Reader.text)
    |>.apply (.optional "resolvedPath" Json.Reader.text)
    |>.apply (.defaulted "specifiers" (Json.Reader.list Json.Reader.text) [])
    |>.apply (.defaulted "type" ImportKind.decode .static)
    |>.apply (.defaulted "sideEffectOnly" Json.Reader.flag false)
    |>.apply (.defaulted "line" (.below positionLimit) 0)
    |>.apply (.defaulted "column" (.below positionLimit) 0)

def decode : Json.Reader Import :=
  fields.read

end Import

structure Export where
  name : String
  kind : ExportKind
  /-- The module that a re-exported name comes from. -/
  source : Option String
  /-- The name before it was renamed. -/
  localName : Option String
  line : Nat
  column : Nat
deriving DecidableEq, Repr

namespace Export

def ofName (name : String) : Export :=
  { name, kind := .named, source := none, localName := none, line := 0, column := 0 }

def encode (e : Export) : Json.Value :=
  .object
    [("name", .text e.name),
     ("type", e.kind.encode),
     ("source", .option .text e.source),
     ("originalName", .option .text e.localName),
     ("line", .nat e.line),
     ("column", .nat e.column)]

def fields : Record.Fields Json.Outline Export :=
  Record.Fields.pure Export.mk
    |>.apply (.required "name" Json.Reader.text)
    |>.apply (.defaulted "type" ExportKind.decode .named)
    |>.apply (.optional "source" Json.Reader.text)
    |>.apply (.optional "originalName" Json.Reader.text)
    |>.apply (.defaulted "line" (.below positionLimit) 0)
    |>.apply (.defaulted "column" (.below positionLimit) 0)

def decode : Json.Reader Export :=
  fields.read

end Export
end Graph
end CodeSurvey
