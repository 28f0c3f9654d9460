import CodeSurvey.Config.Basic
import CodeSurvey.Error

/-!
# Validation of a configuration

Worker counts are corrected by the scheduler itself, so only settings that nothing
can correct are refused.  Of several such settings the first one in the order of the
components is reported.
-/

namespace CodeSurvey
namespace Config

/-- The level names that a configuration may use, in any case of letters. -/
def logLevels : List String :=
  ["off", "error", "warn", "info", "debug", "trace"]

/-- The first setting that cannot stand. -/
def problem? (c : Config) : Option Error :=
  if c.scheduler.maxQueueSize = 0 then
    some (.invalidValue "scheduler.max_queue_size" "must be at least 1")
  else if c.cache.maxSize = 0 then
    some (.invalidValue "cache.max_size" "must be at least 1")
  else if c.cache.persistPath = some "" then
    some (.invalidValue "cache.persist_path" "cannot be empty")
  else if c.logging.level.toLower ∉ logLevels then
    some (.invalidValue "logging.level" ("must be one of: " ++ ", ".intercalate logLevels))
  else none

def validate (c : Config) : Except Error Config :=
  match c.problem? with
  | some error => .error error
  | none => .ok c

end Config
end CodeSurvey
