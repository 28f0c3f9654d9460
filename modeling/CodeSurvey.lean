import CodeSurvey.Cache.Basic
import CodeSurvey.Cache.Document
import CodeSurvey.Config.Basic
import CodeSurvey.Config.Files
import CodeSurvey.Config.Template
import CodeSurvey.Config.Validation
import CodeSurvey.Digest
import CodeSurvey.Error
import CodeSurvey.Fault
import CodeSurvey.Files.Path
import CodeSurvey.Files.Tree
import CodeSurvey.Graph.Basic
import CodeSurvey.Graph.Cycles
import CodeSurvey.Graph.Import
import CodeSurvey.Graph.Links
import CodeSurvey.Graph.Node
import CodeSurvey.Graph.Order
import CodeSurvey.Graph.Path
import CodeSurvey.Graph.PathSet
import CodeSurvey.Graph.Reach
import CodeSurvey.Json.Escape
import CodeSurvey.Json.Number
import CodeSurvey.Json.Outline
import CodeSurvey.Json.Printer
import CodeSurvey.Json.Reader
import CodeSurvey.Json.Token
import CodeSurvey.Json.Value
import CodeSurvey.Log.Directive
import CodeSurvey.Log.Entry
import CodeSurvey.Log.Filter
import CodeSurvey.Log.Line
import CodeSurvey.Log.Outcome
import CodeSurvey.Log.Output
import CodeSurvey.Log.Pattern
import CodeSurvey.Number.Binary
import CodeSurvey.Number.Fixed
import CodeSurvey.Number.Shortest
import CodeSurvey.Proofs.Cache.Contents
import CodeSurvey.Proofs.Cache.Expiry
import CodeSurvey.Proofs.Cache.Inclusion
import CodeSurvey.Proofs.Cache.Layers
import CodeSurvey.Proofs.Cache.Loading
import CodeSurvey.Proofs.Cache.Operation
import CodeSurvey.Proofs.Cache.Recency
import CodeSurvey.Proofs.Cache.Reloading
import CodeSurvey.Proofs.Cache.Restoring
import CodeSurvey.Proofs.Cache.Turnover
import CodeSurvey.Proofs.Cache.Views
import CodeSurvey.Proofs.Cache.Words
import CodeSurvey.Proofs.Config.Nearest
import CodeSurvey.Proofs.Files.Naming
import CodeSurvey.Proofs.Files.Upward
import CodeSurvey.Proofs.Files.Writing
import CodeSurvey.Proofs.Graph.Adding
import CodeSurvey.Proofs.Graph.Changes
import CodeSurvey.Proofs.Graph.CycleMembers
import CodeSurvey.Proofs.Graph.CycleReport
import CodeSurvey.Proofs.Graph.Cyclic
import CodeSurvey.Proofs.Graph.DependencyOrder
import CodeSurvey.Proofs.Graph.Editing
import CodeSurvey.Proofs.Graph.FirstCycle
import CodeSurvey.Proofs.Graph.Lookup
import CodeSurvey.Proofs.Graph.Mirror
import CodeSurvey.Proofs.Graph.Placeholders
import CodeSurvey.Proofs.Graph.Reaching
import CodeSurvey.Proofs.Graph.Scans
import CodeSurvey.Proofs.Graph.Spelling
import CodeSurvey.Proofs.Graph.Tour
import CodeSurvey.Proofs.Json.Accepted
import CodeSurvey.Proofs.Json.Bounds
import CodeSurvey.Proofs.Json.Compact
import CodeSurvey.Proofs.Json.Numeral
import CodeSurvey.Proofs.Json.Printing
import CodeSurvey.Proofs.Json.Rereading
import CodeSurvey.Proofs.Json.Spelling
import CodeSurvey.Proofs.Number.Interval
import CodeSurvey.Proofs.Number.Layout
import CodeSurvey.Proofs.Number.Search
import CodeSurvey.Proofs.Record.Reading
import CodeSurvey.Proofs.Record.Walking
import CodeSurvey.Proofs.Scheduler.Action
import CodeSurvey.Proofs.Scheduler.Cancelling
import CodeSurvey.Proofs.Scheduler.Capacity
import CodeSurvey.Proofs.Scheduler.Chronicle
import CodeSurvey.Proofs.Scheduler.Closing
import CodeSurvey.Proofs.Scheduler.Coherence
import CodeSurvey.Proofs.Scheduler.Collecting
import CodeSurvey.Proofs.Scheduler.Consistency
import CodeSurvey.Proofs.Scheduler.Controls
import CodeSurvey.Proofs.Scheduler.Copies
import CodeSurvey.Proofs.Scheduler.CourseLog
import CodeSurvey.Proofs.Scheduler.Dispatch
import CodeSurvey.Proofs.Scheduler.Durations
import CodeSurvey.Proofs.Scheduler.Fate
import CodeSurvey.Proofs.Scheduler.Finality
import CodeSurvey.Proofs.Scheduler.Grace
import CodeSurvey.Proofs.Scheduler.HostRefinement
import CodeSurvey.Proofs.Scheduler.Hosts
import CodeSurvey.Proofs.Scheduler.Index
import CodeSurvey.Proofs.Scheduler.IndexMoves
import CodeSurvey.Proofs.Scheduler.InputKeys
import CodeSurvey.Proofs.Scheduler.Outcomes
import CodeSurvey.Proofs.Scheduler.Precedence
import CodeSurvey.Proofs.Scheduler.Progress
import CodeSurvey.Proofs.Scheduler.QueueChanges
import CodeSurvey.Proofs.Scheduler.RecordChanges
import CodeSurvey.Proofs.Scheduler.Refusing
import CodeSurvey.Proofs.Scheduler.Reuse
import CodeSurvey.Proofs.Scheduler.Rollback
import CodeSurvey.Proofs.Scheduler.Settled
import CodeSurvey.Proofs.Scheduler.Signals
import CodeSurvey.Proofs.Scheduler.Storing
import CodeSurvey.Proofs.Scheduler.Yielding
import CodeSurvey.Proofs.Simulation.Delivery
import CodeSurvey.Proofs.Simulation.Diary
import CodeSurvey.Proofs.Simulation.Flights
import CodeSurvey.Proofs.Simulation.Hearing
import CodeSurvey.Proofs.Simulation.Timeline
import CodeSurvey.Proofs.Steps
import CodeSurvey.Proofs.Time.Calendar
import CodeSurvey.Proofs.Time.Stamp
import CodeSurvey.Proofs.Wire.Codec
import CodeSurvey.Proofs.Wire.Formats
import CodeSurvey.Proofs.Wire.Graph
import CodeSurvey.Proofs.Wire.Layout
import CodeSurvey.Proofs.Wire.Settings
import CodeSurvey.Record.Fields
import CodeSurvey.Scheduler.Attempts
import CodeSurvey.Scheduler.Batch
import CodeSurvey.Scheduler.Cancel
import CodeSurvey.Scheduler.Control
import CodeSurvey.Scheduler.Event
import CodeSurvey.Scheduler.Host
import CodeSurvey.Scheduler.Ids
import CodeSurvey.Scheduler.Options
import CodeSurvey.Scheduler.Queue
import CodeSurvey.Scheduler.Registry
import CodeSurvey.Scheduler.Shutdown
import CodeSurvey.Scheduler.State
import CodeSurvey.Scheduler.Submit
import CodeSurvey.Scheduler.Task
import CodeSurvey.Simulation.Observer
import CodeSurvey.Simulation.Run
import CodeSurvey.Simulation.Script
import CodeSurvey.Simulation.World
import CodeSurvey.Text.Blank
import CodeSurvey.Text.Decimal
import CodeSurvey.Text.Letter
import CodeSurvey.Text.Printable
import CodeSurvey.Text.Quoted
import CodeSurvey.Text.Slice
import CodeSurvey.Time.Calendar
import CodeSurvey.Time.Instant
import CodeSurvey.Time.Span
import CodeSurvey.Time.Stamp
import CodeSurvey.Toml.Document
import CodeSurvey.Toml.Lexeme
import CodeSurvey.Toml.Value
import CodeSurvey.Yaml.Cursor
import CodeSurvey.Yaml.Document
import CodeSurvey.Yaml.Node
import CodeSurvey.Yaml.Scalar
import CodeSurvey.Yaml.Token
import CodeSurvey.Yaml.Word
