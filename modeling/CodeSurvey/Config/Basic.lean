import CodeSurvey.Json.Reader

/-!
# Configuration

The settings of the four components, their defaults, and their form as records.
Every setting has a default, so every part of a configuration may be left out; how many
workers there are by default depends on the machine.  The readers work for any kind of
document.
-/

namespace CodeSurvey

/-- Sizes and times in milliseconds are below this. -/
def Config.wordLimit : Nat := Nat.pow 2 64

def Config.retryLimit : Nat := Nat.pow 2 32

/-- The machine that the program runs on. -/
class Machine where
  /-- How many threads it runs in parallel, if it says so. -/
  parallelism? : Option { n : Nat // 0 < n ∧ n < Config.wordLimit }

/-- One worker slot for each thread, and four where nothing is known of the machine. -/
def Machine.workers [m : Machine] : Nat :=
  match m.parallelism? with
  | some n => n
  | none => 4

namespace Config

variable [Machine]

structure SchedulerSettings where
  minWorkers : Nat
  maxWorkers : Nat
  maxQueueSize : Nat
  /-- The time limit of one attempt; zero for none. -/
  taskTimeoutMs : Nat
  maxRetries : Nat
  enableCaching : Bool
  shutdownGraceMs : Nat
deriving DecidableEq, Repr

structure CacheSettings where
  maxSize : Nat
  /-- How long an entry lives; zero for ever. -/
  ttlMs : Nat
  persistPath : Option String
deriving DecidableEq, Repr

structure GraphSettings where
  trackTypeImports : Bool
  includeNodeModules : Bool
deriving DecidableEq, Repr

structure LoggingSettings where
  level : String
  file : Bool
  directory : Option String
  json : Bool
deriving DecidableEq, Repr

namespace SchedulerSettings

def forWorkers (workers : Nat) : SchedulerSettings :=
  { minWorkers := 1, maxWorkers := workers, maxQueueSize := 10000, taskTimeoutMs := 30000
    maxRetries := 2, enableCaching := true, shutdownGraceMs := 5000 }

def default : SchedulerSettings :=
  forWorkers Machine.workers

def encode (s : SchedulerSettings) : Json.Value :=
  .object
    [("min_workers", .nat s.minWorkers),
     ("max_workers", .nat s.maxWorkers),
     ("max_queue_size", .nat s.maxQueueSize),
     ("task_timeout_ms", .nat s.taskTimeoutMs),
     ("max_retries", .nat s.maxRetries),
     ("enable_caching", .flag s.enableCaching),
     ("shutdown_grace_ms", .nat s.shutdownGraceMs)]

def fields [Record.Source s] : Record.Fields s SchedulerSettings :=
  Record.Fields.pure SchedulerSettings.mk
    |>.apply (.defaulted "min_workers" (.below wordLimit) default.minWorkers)
    |>.apply (.defaulted "max_workers" (.below wordLimit) default.maxWorkers)
    |>.apply (.defaulted "max_queue_size" (.below wordLimit) default.maxQueueSize)
    |>.apply (.defaulted "task_timeout_ms" (.below wordLimit) default.taskTimeoutMs)
    |>.apply (.defaulted "max_retries" (.below retryLimit) default.maxRetries)
    |>.apply (.defaulted "enable_caching" Record.Source.flag default.enableCaching)
    |>.apply (.defaulted "shutdown_grace_ms" (.below wordLimit) default.shutdownGraceMs)

end SchedulerSettings

namespace CacheSettings

def default : CacheSettings :=
  { maxSize := 1000, ttlMs := 0, persistPath := none }

def encode (c : CacheSettings) : Json.Value :=
  .object
    [("max_size", .nat c.maxSize),
     ("ttl_ms", .nat c.ttlMs),
     ("persist_path", .option .text c.persistPath)]

def fields [Record.Source s] : Record.Fields s CacheSettings :=
  Record.Fields.pure CacheSettings.mk
    |>.apply (.defaulted "max_size" (.below wordLimit) default.maxSize)
    |>.apply (.defaulted "ttl_ms" (.below wordLimit) default.ttlMs)
    |>.apply (.optional "persist_path" Record.Source.text)

end CacheSettings

namespace GraphSettings

def default : GraphSettings :=
  { trackTypeImports := true, includeNodeModules := false }

def encode (g : GraphSettings) : Json.Value :=
  .object
    [("track_type_imports", .flag g.trackTypeImports),
     ("include_node_modules", .flag g.includeNodeModules)]

def fields [Record.Source s] : Record.Fields s GraphSettings :=
  Record.Fields.pure GraphSettings.mk
    |>.apply (.defaulted "track_type_imports" Record.Source.flag default.trackTypeImports)
    |>.apply (.defaulted "include_node_modules" Record.Source.flag default.includeNodeModules)

end GraphSettings

namespace LoggingSettings

def default : LoggingSettings :=
  { level := "warn", file := false, directory := none, json := false }

def encode (l : LoggingSettings) : Json.Value :=
  .object
    [("level", .text l.level),
     ("file", .flag l.file),
     ("directory", .option .text l.directory),
     ("json", .flag l.json)]

def fields [Record.Source s] : Record.Fields s LoggingSettings :=
  Record.Fields.pure LoggingSettings.mk
    |>.apply (.defaulted "level" Record.Source.text default.level)
    |>.apply (.defaulted "file" Record.Source.flag default.file)
    |>.apply (.optional "directory" Record.Source.text)
    |>.apply (.defaulted "json" Record.Source.flag default.json)

end LoggingSettings

end Config

structure Config where
  scheduler : Config.SchedulerSettings
  cache : Config.CacheSettings
  graph : Config.GraphSettings
  logging : Config.LoggingSettings
deriving DecidableEq, Repr

namespace Config

variable [Machine]

def default : Config :=
  { scheduler := .default, cache := .default, graph := .default, logging := .default }

def encode (c : Config) : Json.Value :=
  .object
    [("scheduler", c.scheduler.encode),
     ("cache", c.cache.encode),
     ("graph", c.graph.encode),
     ("logging", c.logging.encode)]

def fields [Record.Source s] : Record.Fields s Config :=
  Record.Fields.pure Config.mk
    |>.apply (.defaulted "scheduler" SchedulerSettings.fields.read .default)
    |>.apply (.defaulted "cache" CacheSettings.fields.read .default)
    |>.apply (.defaulted "graph" GraphSettings.fields.read .default)
    |>.apply (.defaulted "logging" LoggingSettings.fields.read .default)

def read [Record.Source s] : Record.Reader s Config :=
  fields.read

end Config
end CodeSurvey
