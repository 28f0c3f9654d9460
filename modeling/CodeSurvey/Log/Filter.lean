import CodeSurvey.Log.Directive

/-!
# Filters

A filter says which entries are worth writing.  It is a list of directives between
commas.  Of those that concern an entry, the narrowest one decides.
-/

namespace CodeSurvey
namespace Log

structure Filter where
  directives : List Directive
deriving DecidableEq, Repr

namespace Filter

/-- Errors pass. -/
def default : Filter :=
  { directives := [.general (some .error)] }

def pieces (s : String) : List String :=
  (s.splitOn ",").filter fun piece => piece ≠ ""

/-- Read a filter, if all its directives can be read.  Without any directive nothing
passes. -/
def ofText? (s : String) : Option Filter :=
  ((pieces s).mapM Directive.ofText?).map fun directives => { directives }

/-- Read a filter; directives that cannot be read are left out, and if there are no
others the filter is the default one. -/
def ofText (s : String) : Filter :=
  match (pieces s).filterMap Directive.ofText? with
  | [] => default
  | directives => { directives }

/-- The directive that decides about an entry: the narrowest one, and of several that
differ only in the level the last. -/
def deciding? (f : Filter) (source : String) (e : Entry) : Option Directive :=
  (f.directives.filter fun d => d.concerns source e).foldl
    (fun best d =>
      match best with
      | some b => if b.yieldsTo d then some d else some b
      | none => some d)
    none

def passes (f : Filter) (source : String) (e : Entry) : Bool :=
  match f.deciding? source e with
  | some d => d.threshold.passes e.level
  | none => false

end Filter
end Log
end CodeSurvey
