import CodeSurvey.Config.Basic
import CodeSurvey.Error
import CodeSurvey.Files.Tree
import CodeSurvey.Log.Filter
import CodeSurvey.Log.Line

/-!
# Where the log goes

The log goes to the console, filtered, and from the level of debugging on to a file of
the day, if the configuration asks for one and its directory can be made.  It can be set
up only once.
-/

namespace CodeSurvey
namespace Log

structure Environment where
  /-- The filter that the user asks for. -/
  filter : Option String
  home : String
  now : Time.Instant

structure Output where
  console : Filter
  json : Bool
  /-- The log file of the day. -/
  file : Option String
deriving DecidableEq, Repr

namespace Output

/-- The user's filter, if it can be read, and else the level of the configuration. -/
def consoleFilter (env : Environment) (settings : Config.LoggingSettings) : Filter :=
  (env.filter.bind Filter.ofText?).getD (.ofText settings.level)

def directory (env : Environment) (settings : Config.LoggingSettings) : String :=
  settings.directory.getD (Files.Path.join (Files.Path.join env.home ".drift") "logs")

def fileName (now : Time.Instant) : String :=
  "drift.log." ++ Time.Stamp.day now

def append (t : Files.Tree) (path text : String) : Except Files.PathError Files.Tree :=
  let old := match t.readBytes path with
    | .ok content => content
    | .error _ => ByteArray.empty
  t.write path (old ++ text.toUTF8)

/-- Make the log file, if there has to be one and there can be. -/
def openFile (env : Environment) (settings : Config.LoggingSettings) (t : Files.Tree) :
    Files.Tree × Option String :=
  if !settings.file then (t, none)
  else
    match t.makeDirectories (directory env settings) with
    | (t, some _) => (t, none)
    | (t, none) =>
        let path := Files.Path.join (directory env settings) (fileName env.now)
        match append t path "" with
        | .ok t => (t, some path)
        | .error _ => (t, none)

/-- Set up the output of the log, unless that has been done before. -/
def install (env : Environment) (settings : Config.LoggingSettings) (t : Files.Tree)
    (installed : Option Output) : Files.Tree × Except Error Output :=
  let (t, file) := openFile env settings t
  match installed with
  | some _ => (t, .error (.logging "a log is already set up"))
  | none => (t, .ok { console := consoleFilter env settings, json := settings.json, file })

/-!
# Writing
-/

def consoleLines (o : Output) (now : Time.Instant) (source : String) (es : List Entry) :
    List String :=
  (es.filter (o.console.passes source)).map
    (if o.json then Line.json none now else Line.plain now)

def fileFilter : Filter :=
  { directives := [.general (some .debug)] }

def fileLines (now : Time.Instant) (source : String) (es : List Entry) : List String :=
  (es.filter (fileFilter.passes source)).map (Line.json (some source) now)

def writeFile (o : Output) (now : Time.Instant) (source : String) (es : List Entry)
    (t : Files.Tree) : Files.Tree :=
  match o.file with
  | none => t
  | some path =>
      let text := String.join ((fileLines now source es).map (· ++ "\n"))
      match append t path text with
      | .ok t => t
      | .error _ => t

end Output
end Log
end CodeSurvey
