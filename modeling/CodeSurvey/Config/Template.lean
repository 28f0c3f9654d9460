import CodeSurvey.Config.Basic
import CodeSurvey.Json.Printer

/-!
# Configuration files to start from

The defaults as a TOML document, and a commented template for a machine with four
processors.
-/

namespace CodeSurvey
namespace Config

/-- A setting as a line of a TOML document; an absent one has none. -/
def settingLine? (setting : String × Json.Value) : Option String :=
  match setting.2 with
  | .null => none
  | value => some (setting.1 ++ " = " ++ value.compact)

def section? (component : String × Json.Value) : Option String :=
  match component.2 with
  | .object settings =>
      some ("\n".intercalate (("[" ++ component.1 ++ "]") :: settings.filterMap settingLine?) ++
        "\n")
  | _ => none

def toToml (c : Config) : String :=
  match c.encode with
  | .object components => "\n".intercalate (components.filterMap section?)
  | _ => ""

def template : String :=
  "\n".intercalate
    ["# Drift Configuration",
     "",
     "[scheduler]",
     "min_workers = 1",
     "max_workers = 4",
     "max_queue_size = 10000",
     "task_timeout_ms = 30000",
     "max_retries = 2",
     "enable_caching = true",
     "shutdown_grace_ms = 5000",
     "",
     "[cache]",
     "max_size = 1000",
     "ttl_ms = 0",
     "",
     "[graph]",
     "track_type_imports = true",
     "include_node_modules = false",
     "",
     "[logging]",
     "level = \"warn\"",
     "json = false",
     ""]

end Config
end CodeSurvey
