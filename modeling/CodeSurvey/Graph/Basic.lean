import CodeSurvey.Graph.Node
import CodeSurvey.Graph.Path
import CodeSurvey.Log.Entry
import Std.Data.TreeMap

/-!
# The module graph

The graph holds the modules of a code base by their paths and the log of resolved
imports.  An import is recorded three times: in the dependencies of the importing
module, in the dependents of the imported one, and as an edge.  Adding a module
replaces what was known of it and keeps the modules that import it; an import of an
unknown module creates a placeholder.
-/

namespace CodeSurvey
namespace Graph

structure Options where
  trackTypeImports : Bool
  includeInstalled : Bool
deriving DecidableEq, Repr

namespace Options

def acceptsTarget (o : Options) (resolved : Option String) : Bool :=
  match resolved with
  | some path => o.includeInstalled || !Path.isInstalled (Path.normalize path)
  | none => true

def accepts (o : Options) (i : Import) : Bool :=
  (o.trackTypeImports || i.kind ≠ .typeOnly) && o.acceptsTarget i.resolved

end Options

structure ModuleGraph where
  options : Options
  nodes : Std.TreeMap String Node
  /-- The resolved imports, in the order in which they were recorded. -/
  edges : List Edge

namespace ModuleGraph

def empty (options : Options) : ModuleGraph :=
  { options, nodes := ∅, edges := [] }

/-- The module with the given path, in any spelling. -/
def node? (g : ModuleGraph) (path : String) : Option Node :=
  g.nodes[Path.normalize path]?

def contains (g : ModuleGraph) (path : String) : Bool :=
  (g.node? path).isSome

def modules (g : ModuleGraph) : List Node :=
  g.nodes.toList.map Prod.snd

def paths (g : ModuleGraph) : List String :=
  g.nodes.keys

def size (g : ModuleGraph) : Nat :=
  g.nodes.size

def edgeCount (g : ModuleGraph) : Nat :=
  g.edges.length

def isEmpty (g : ModuleGraph) : Bool :=
  g.nodes.isEmpty

def clear (g : ModuleGraph) : ModuleGraph :=
  empty g.options

/-!
# Adding a module
-/

/-- The edges of a module, one for each resolved import. -/
def edgesOf (path : String) (imports : List Import) : List Edge :=
  imports.filterMap fun i =>
    i.resolved.map fun target => { source := path, target := Path.normalize target, via := i }

def updateAll (nodes : Std.TreeMap String Node) (paths : List String) (f : Node -> Node) :
    Std.TreeMap String Node :=
  paths.foldl (fun nodes path => nodes.modify path f) nodes

def addDependent (path : String) (n : Node) : Node :=
  { n with dependents := n.dependents.insert path }

def dropDependent (path : String) (n : Node) : Node :=
  { n with dependents := n.dependents.erase path }

def dropDependency (path : String) (n : Node) : Node :=
  { n with dependencies := n.dependencies.erase path }

def unlinkOutgoing (g : ModuleGraph) (path : String) : ModuleGraph :=
  match g.nodes[path]? with
  | none => g
  | some n =>
      if n.dependencies.isEmpty then g
      else
        { g with
          nodes := updateAll g.nodes n.dependencies.toList (dropDependent path)
          edges := g.edges.filter fun e => e.source ≠ path }

/-- The targets that need a placeholder, each once, in the order of the imports. -/
def missing (nodes : Std.TreeMap String Node) (path : String) (targets : List String) :
    List String :=
  (targets.filter fun t => !nodes.contains t && t ≠ path).eraseDups

def addPlaceholders (nodes : Std.TreeMap String Node) (paths : List String) :
    Std.TreeMap String Node :=
  paths.foldl (fun nodes path => nodes.insert path (.placeholder path)) nodes

/-- Record an analysed module, in place of anything known of it before. -/
def add (g : ModuleGraph) (now : Time.Instant) (path : String)
    (imports : List Import) (exports : List Export) : ModuleGraph :=
  let path := Path.normalize path
  let imports := imports.filter g.options.accepts
  let g := g.unlinkOutgoing path
  let dependents := (g.nodes[path]?.map Node.dependents).getD ∅
  let edges := edgesOf path imports
  let targets := edges.map Edge.target
  let others := g.nodes.erase path
  let nodes := addPlaceholders others (missing others path targets)
  let dependencies := PathSet.ofList targets
  let node : Node :=
    { path, imports, exports, dependencies, dependents
      analyzed := true, analyzedAt := some now }
  { g with
    nodes := updateAll (nodes.insert path node) dependencies.toList (addDependent path)
    edges := g.edges ++ edges }

def addLog (g : ModuleGraph) (path : String) (imports : List Import) : List Log.Entry :=
  let path := Path.normalize path
  let targets := (edgesOf path (imports.filter g.options.accepts)).map Edge.target
  let created := missing (g.nodes.erase path) path targets
  created.map (fun t => .debug "placeholder created for import target" [("module", .text t)]) ++
    [.debug "module added"
      [("module", .text path), ("dependencies", .nat (PathSet.ofList targets).size)]]

/-!
# Removing a module
-/

/-- The graph without a module and every edge that touches it; nothing when the
module is unknown. -/
def remove? (g : ModuleGraph) (path : String) : Option ModuleGraph :=
  let path := Path.normalize path
  match g.nodes[path]? with
  | none => none
  | some n =>
      let others := g.nodes.erase path
      let nodes := updateAll others n.dependents.toList (dropDependency path)
      some
        { g with
          nodes := updateAll nodes n.dependencies.toList (dropDependent path)
          edges := g.edges.filter fun e => e.source ≠ path && e.target ≠ path }

def removeLog (g : ModuleGraph) (path : String) : List Log.Entry :=
  if g.contains path then
    [.debug "module removed" [("module", .text (Path.normalize path))]]
  else []

/-!
# Direct neighbours and listings
-/

def dependencies (g : ModuleGraph) (path : String) : List String :=
  ((g.node? path).map fun n => n.dependencies.toList).getD []

def dependents (g : ModuleGraph) (path : String) : List String :=
  ((g.node? path).map fun n => n.dependents.toList).getD []

def pathsWhere (g : ModuleGraph) (p : Node -> Bool) : List String :=
  (g.modules.filter p).map Node.path

def leaves (g : ModuleGraph) : List String :=
  g.pathsWhere fun n => n.dependencies.isEmpty

def roots (g : ModuleGraph) : List String :=
  g.pathsWhere fun n => n.dependents.isEmpty

/-- Modules that are imported and have not been analysed. -/
def placeholders (g : ModuleGraph) : List String :=
  g.pathsWhere fun n => !n.analyzed

end ModuleGraph
end Graph
end CodeSurvey
