import CodeSurvey.Config.Validation
import CodeSurvey.Log.Outcome
import CodeSurvey.Toml.Document
import CodeSurvey.Yaml.Document

/-!
# Configuration files

A configuration file is found by its name, in a directory or one above it, and read in
the format that its name shows.  A file that cannot be read, does not hold a
configuration or holds one that is not valid gives an error.
-/

namespace CodeSurvey
namespace Config

inductive Format where
  | toml
  | yaml
deriving DecidableEq, Repr

namespace Format

def name : Format -> String
  | .toml => "Toml"
  | .yaml => "Yaml"

/-- The format that a file name shows; without the ending for TOML it is YAML. -/
def ofPath (path : String) : Format :=
  match Files.Path.extension? path with
  | some ending => if ending.toLower = "toml" then .toml else .yaml
  | none => .yaml

def parse [Machine] (format : Format) (text : String) : Except Error Config :=
  match format with
  | .toml => ((Toml.Value.parse text).bind read).mapError (.toml ∘ .ofFault)
  | .yaml => ((Yaml.Document.parse text).bind read).mapError (.yaml ∘ .ofFault)

end Format

/-- The names of configuration files; of several in one directory the first counts. -/
def fileNames : List String :=
  ["drift.toml", "drift.yaml", ".drift.toml", ".drift.yaml"]

def findIn (t : Files.Tree) (directory : String) : Option String :=
  (fileNames.map (Files.Path.join directory)).find? t.isFile

def find? (t : Files.Tree) (start : String) : Option String :=
  (Files.Path.ancestors start).findSome? (findIn t)

def findLog (start : String) (found : Option String) : List Log.Entry :=
  match found with
  | some path => [.debug "config file found" [("path", .text path)]]
  | none => [.debug "no config file above directory" [("start_dir", .text start)]]

section Reading

variable [Machine]

def load (t : Files.Tree) (path : String) : Except Error Config := do
  let text ← (t.readText path).mapError (.file ∘ .ofCause)
  let config ← (Format.ofPath path).parse text
  config.validate

def loadLog (path : String) : List Log.Entry :=
  [.info "config loaded"
    [("path", .text path), ("format", .text (Format.ofPath path).name)]]

/-- The configuration that holds for a directory, and the file that it comes from. -/
def loadFrom (t : Files.Tree) (start : String) :
    Log.Outcome Unit (Except Error (Config × String)) :=
  let found := find? t start
  match found with
  | none => { state := (), result := .error (.notFound start), log := findLog start found }
  | some path =>
      match load t path with
      | .ok config =>
          { state := (), result := .ok (config, path)
            log := findLog start found ++ loadLog path }
      | .error error => { state := (), result := .error error, log := findLog start found }

/-- The configuration that holds for a directory; the defaults when there is none that
can be used. -/
def loadOrDefault (t : Files.Tree) (start : String) :
    Log.Outcome Unit (Config × Option String) :=
  let loaded := loadFrom t start
  match loaded.result with
  | .ok (config, path) => { loaded with result := (config, some path) }
  | .error error =>
      { state := ()
        result := (.default, none)
        log := loaded.log ++
          [.warn "falling back to default config"
            [("dir", .text start), ("error", .text error.message)]] }

end Reading

end Config
end CodeSurvey
