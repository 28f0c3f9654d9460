import CodeSurvey.Config.Basic
import CodeSurvey.Proofs.Wire.Layout

/-!
# Codecs of the configuration

Every setting has a default, and so has every section.
-/

namespace CodeSurvey

theorem Machine.workers_lt_wordLimit [Machine] : Machine.workers < Config.wordLimit := by
  unfold Machine.workers
  split
  next n _ => exact n.property.2
  next => decide

namespace Config

open Wire (Codec Format Layout RoundTrips)

def wordCodec : Codec n Nat :=
  .below wordLimit (by decide)

namespace SchedulerSettings

/-- The numbers are words of 64 bits, and the retry count is one of 32. -/
structure Fits (s : SchedulerSettings) : Prop where
  minWorkers : s.minWorkers < wordLimit
  maxWorkers : s.maxWorkers < wordLimit
  maxQueueSize : s.maxQueueSize < wordLimit
  taskTimeoutMs : s.taskTimeoutMs < wordLimit
  maxRetries : s.maxRetries < retryLimit
  shutdownGraceMs : s.shutdownGraceMs < wordLimit

theorem fits_default [Machine] : default.Fits := by
  constructor
  case maxWorkers => exact Machine.workers_lt_wordLimit
  all_goals
    simp only [default, forWorkers]
    decide

def layout [Machine] : Layout n SchedulerSettings SchedulerSettings :=
  Layout.start mk
    |>.defaulted "min_workers" minWorkers wordCodec default.minWorkers fits_default.minWorkers
    |>.defaulted "max_workers" maxWorkers wordCodec default.maxWorkers fits_default.maxWorkers
    |>.defaulted "max_queue_size" maxQueueSize wordCodec default.maxQueueSize
      fits_default.maxQueueSize
    |>.defaulted "task_timeout_ms" taskTimeoutMs wordCodec default.taskTimeoutMs
      fits_default.taskTimeoutMs
    |>.defaulted "max_retries" maxRetries (.below retryLimit (by decide)) default.maxRetries
      fits_default.maxRetries
    |>.defaulted "enable_caching" enableCaching .flag default.enableCaching trivial
    |>.defaulted "shutdown_grace_ms" shutdownGraceMs wordCodec default.shutdownGraceMs
      fits_default.shutdownGraceMs

theorem fits_layout [Machine] {s : SchedulerSettings} (h : s.Fits) : (layout (n := n)).Fits s :=
  ⟨h.minWorkers, h.maxWorkers, h.maxQueueSize, h.taskTimeoutMs, h.maxRetries, trivial,
    h.shutdownGraceMs⟩

def codec [Machine] : Codec (n + 1) SchedulerSettings :=
  layout.codec
    ["min_workers", "max_workers", "max_queue_size", "task_timeout_ms", "max_retries",
      "enable_caching", "shutdown_grace_ms"]
    rfl (by decide) (fun _ => rfl)
    fun _ hmin _ hmax _ hqueue _ htimeout _ hretries _ hcaching _ hgrace =>
      ⟨hmin, hmax, hqueue, htimeout, hretries, hcaching, hgrace⟩

end SchedulerSettings

namespace CacheSettings

structure Fits (c : CacheSettings) : Prop where
  maxSize : c.maxSize < wordLimit
  ttlMs : c.ttlMs < wordLimit

theorem fits_default : default.Fits := by
  constructor
  all_goals decide

def layout : Layout n CacheSettings CacheSettings :=
  Layout.start mk
    |>.defaulted "max_size" maxSize wordCodec default.maxSize fits_default.maxSize
    |>.defaulted "ttl_ms" ttlMs wordCodec default.ttlMs fits_default.ttlMs
    |>.optional "persist_path" persistPath .text Codec.present_text

theorem fits_layout {c : CacheSettings} (h : c.Fits) : (layout (n := n)).Fits c :=
  ⟨h.maxSize, h.ttlMs, fun _ _ => trivial⟩

def codec : Codec (n + 1) CacheSettings :=
  layout.codec ["max_size", "ttl_ms", "persist_path"] rfl (by decide) (fun _ => rfl)
    fun _ hsize _ httl _ hpath => ⟨hsize, httl, hpath⟩

end CacheSettings

namespace GraphSettings

def layout : Layout n GraphSettings GraphSettings :=
  Layout.start mk
    |>.defaulted "track_type_imports" trackTypeImports .flag default.trackTypeImports trivial
    |>.defaulted "include_node_modules" includeNodeModules .flag default.includeNodeModules
      trivial

theorem fits_layout (g : GraphSettings) : (layout (n := n)).Fits g :=
  ⟨trivial, trivial⟩

def codec : Codec (n + 1) GraphSettings :=
  layout.codec ["track_type_imports", "include_node_modules"] rfl (by decide) (fun _ => rfl)
    fun _ _ _ _ => fits_layout _

end GraphSettings

namespace LoggingSettings

def layout : Layout n LoggingSettings LoggingSettings :=
  Layout.start mk
    |>.defaulted "level" level .text default.level trivial
    |>.defaulted "file" file .flag default.file trivial
    |>.optional "directory" directory .text Codec.present_text
    |>.defaulted "json" json .flag default.json trivial

theorem fits_layout (s : LoggingSettings) : (layout (n := n)).Fits s :=
  ⟨trivial, trivial, fun _ _ => trivial, trivial⟩

def codec : Codec (n + 1) LoggingSettings :=
  layout.codec ["level", "file", "directory", "json"] rfl (by decide) (fun _ => rfl)
    fun _ _ _ _ _ _ _ _ => fits_layout _

end LoggingSettings

structure Fits (c : Config) : Prop where
  scheduler : c.scheduler.Fits
  cache : c.cache.Fits

def layout [Machine] : Layout (n + 1) Config Config :=
  Layout.start mk
    |>.defaulted "scheduler" scheduler SchedulerSettings.codec .default
      (SchedulerSettings.fits_layout SchedulerSettings.fits_default)
    |>.defaulted "cache" cache CacheSettings.codec .default
      (CacheSettings.fits_layout CacheSettings.fits_default)
    |>.defaulted "graph" graph GraphSettings.codec .default (GraphSettings.fits_layout _)
    |>.defaulted "logging" logging LoggingSettings.codec .default (LoggingSettings.fits_layout _)

theorem fits_layout [Machine] {c : Config} (h : c.Fits) : (layout (n := n)).Fits c :=
  ⟨SchedulerSettings.fits_layout h.scheduler, CacheSettings.fits_layout h.cache,
    GraphSettings.fits_layout c.graph, LoggingSettings.fits_layout c.logging⟩

def codec [Machine] : Codec (n + 2) Config :=
  layout.codec ["scheduler", "cache", "graph", "logging"] rfl (by decide) (fun _ => rfl)
    fun _ hscheduler _ hcache _ hgraph _ hlogging => ⟨hscheduler, hcache, hgraph, hlogging⟩

def format [Machine] : Format Config :=
  codec (n := 125)

theorem fields_layout [Machine] : (layout (n := n)).fields = fields :=
  rfl

theorem roundTrips [Machine] : RoundTrips encode read format.change Fits (fun _ => True) := by
  have hdecode : format.decode = read := congrArg Record.Fields.read fields_layout
  have hencode : format.encode = encode := rfl
  rw [← hdecode, ← hencode]
  exact format.roundTrips_of_plain rfl fun _ h => fits_layout h

end Config
end CodeSurvey
