import CodeSurvey.Scheduler.Batch
import CodeSurvey.Scheduler.Control
import CodeSurvey.Scheduler.Shutdown
import CodeSurvey.Simulation.Observer

/-!
# A scheduler on a clock that is moved by hand

The world of a simulation holds one scheduler with scripted processors, its observers,
the attempts in flight, and jobs that wait for the scheduler.  Everything that happens at
one instant happens in turns, one after the other in the order in which they were asked
for.  Time only moves from one timer to the next.
-/

namespace CodeSurvey
namespace Simulation

open Scheduler (Event Refusal State)

/-- All of a simulation happens on one processor. -/
instance : Machine :=
  { parallelism? := some ⟨1, by decide⟩ }

abbrev Call (a : Type) :=
  Scheduler.Call Processor Json.Value Json.Value a

structure Flight where
  number : Nat
  attempt : Scheduler.Attempt Processor Json.Value
  /-- When its clock was started. -/
  since : Int
  /-- What will come of it, once its processor has been called. -/
  ending : Ending
deriving Repr

inductive JobResult where
  | batch (results : Except Refusal (List (Scheduler.BatchResult Json.Value)))
  | drained
  | stopped

inductive Stage where
  | submitting (inputs : List Json.Value)
  | collecting (entries : Scheduler.Batch Json.Value)
  | draining
  /-- A shutdown that has not begun; it may have a grace of its own, in milliseconds. -/
  | closing (grace : Option Nat)
  | shutdown (s : Scheduler.Shutdown) (elapsed : Bool)
  | done (result : JobResult)

structure Job where
  stage : Stage
  /-- Whether a turn is waiting for the job, or it is the job's turn. -/
  scheduled : Bool

inductive Turn where
  | start (flight : Nat)
  | call (flight : Nat)
  | wake (flight : Nat)
  | finish (flight : Nat) (found : Except Scheduler.Setback Json.Value)
  | job (number : Nat)

inductive Alarm where
  | wake (flight : Nat)
  | timeout (flight : Nat)
  | grace (job : Nat)
deriving DecidableEq, Repr

structure Timer where
  due : Int
  alarm : Alarm
deriving DecidableEq, Repr

structure Report where
  /-- The events, with the time since the start of the simulation. -/
  events : List (Int × Event)
  /-- The calls of processors: the name of the input, and how often it was called. -/
  calls : List (String × Nat)
  notes : List Note
  /-- The names of inputs whose attempts were broken off. -/
  dropped : List String

namespace Report

def empty : Report :=
  { events := [], calls := [], notes := [], dropped := [] }

end Report

structure World where
  scheduler : State Processor Json.Value Json.Value
  registry : Scheduler.Registry Listener
  observers : List Observer
  start : Int
  now : Int
  turns : List Turn
  /-- In the order in which they were set. -/
  timers : List Timer
  flights : List Flight
  nextFlight : Nat
  jobs : List Job
  nextProcessor : Nat
  /-- How often each processor was called for each name. -/
  callCounts : List ((Nat × String) × Nat)
  report : Report
  log : List Log.Entry

namespace World

def new (options : Scheduler.Options) (cacheOptions : Cache.Options)
    (ids : Scheduler.IdSource) (now : Int) : World :=
  let created := State.new options cacheOptions ids
  { scheduler := created.state
    registry := (Scheduler.Registry.empty.subscribe .recorder).1
    observers := []
    start := now
    now
    turns := []
    timers := []
    flights := []
    nextFlight := 0
    jobs := []
    nextProcessor := 0
    callCounts := []
    report := .empty
    log := created.log }

def time (w : World) : Int :=
  w.now - w.start

def ask (w : World) (t : Turn) : World :=
  { w with turns := w.turns ++ [t] }

def setTimer (w : World) (delay : Nat) (alarm : Alarm) : World :=
  { w with timers := w.timers ++ [{ due := w.now + delay, alarm }] }

def clearTimers (w : World) (alarms : List Alarm) : World :=
  { w with timers := w.timers.filter fun t => t.alarm ∉ alarms }

def write (w : World) (entries : List Log.Entry) : World :=
  { w with log := w.log ++ entries }

def takeReport (w : World) : World × Report :=
  ({ w with report := .empty }, w.report)

/-!
# Jobs
-/

/-- A new job; its first turn is asked for at once. -/
def startJob (w : World) (stage : Stage) : World × Nat :=
  let number := w.jobs.length
  let job : Job := { stage, scheduled := true }
  let w := { w with jobs := w.jobs ++ [job] }
  (w.ask (.job number), number)

def jobResult? (w : World) (number : Nat) : Option JobResult :=
  match w.jobs[number]? with
  | some { stage := .done result, .. } => some result
  | _ => none

def isDone (w : World) (number : Nat) : Bool :=
  (w.jobResult? number).isSome

/-- Ask for a turn for a job, unless it has one. -/
def wakeJob (w : World) (number : Nat) : World :=
  match w.jobs[number]? with
  | some { stage := .done _, .. } | none => w
  | some job =>
      if job.scheduled then w
      else
        { w with jobs := w.jobs.set number { job with scheduled := true } }.ask (.job number)

def wakeJobs (w : World) : World :=
  (List.range w.jobs.length).foldl wakeJob w

/-!
# Calls of the scheduler

A change is followed by the delivery of its events and by a look of those who wait;
then tasks are started, and that is followed by the same.
-/

def launch (w : World) (attempts : List (Scheduler.Attempt Processor Json.Value)) : World :=
  attempts.foldl
    (fun w attempt =>
      let number := w.nextFlight
      let flight : Flight := { number, attempt, since := w.now, ending := .echo }
      { w with flights := w.flights ++ [flight], nextFlight := number + 1 }.ask (.start number))
    w

def dispatch (deliver : World -> World) (w : World) : World :=
  let (scheduler, attempts) := w.scheduler.dispatch w.now
  if attempts.isEmpty then { w with scheduler }
  else (deliver { w with scheduler }).wakeJobs.launch attempts

/-- Carry out a call, with a way to deliver events. -/
def perform (deliver : World -> World) (w : World) (change : Call a) : World × a :=
  let c := change w.scheduler
  let w := deliver ({ w with scheduler := c.state }.write c.log)
  let w := if c.wakes then w.wakeJobs else w
  (if c.dispatches then w.dispatch deliver else w, c.result)

/-!
# Delivery

While events are delivered, what the observers cause is not delivered at once: it waits
until all have been told of the events before it.
-/

def obey (w : World) (token : Scheduler.Token) (command : Command) : World × Answer :=
  let within := fun {a : Type} (change : Call a) (answer : a -> Answer) =>
    let (w, result) := perform id w change
    (w, answer result)
  match command with
  | .add input priority =>
      within (·.submit coding w.now input priority) fun r =>
        match r with
        | .ok task => .status (some task.status)
        | .error refusal => .refused refusal
  | .cancel target => within (·.cancel w.now target) .flag
  | .cancelAll => within (·.cancelAll w.now) .count
  | .pause => within (·.pause) fun _ => .nothing
  | .resume => within (·.resume) fun _ => .nothing
  | .clearFinished => within (·.clearFinished) .count
  | .status target => (w, .status ((w.scheduler.task? target).map (·.status)))
  | .stats => (w, .stats w.scheduler.stats)
  | .unsubscribe =>
      let (registry, found) := w.registry.unsubscribe token
      ({ w with registry }, .flag found)

def note (w : World) (n : Note) : World :=
  { w with report := { w.report with notes := w.report.notes ++ [n] } }

def react (number : Nat) (token : Scheduler.Token) (e : Event) :
    List Reaction -> World -> World × List Reaction
  | [], w => (w, [])
  | r :: rest, w =>
      if r.answersTo e then
        let (w, answer) := w.obey token r.command
        let (w, rest) := react number token e rest (w.note (.called number r.command answer))
        (w, { r with left := r.left - 1 } :: rest)
      else
        let (w, rest) := react number token e rest w
        (w, r :: rest)

def tell (w : World) (listener : Listener) (e : Event) : World :=
  match listener with
  | .recorder =>
      { w with report := { w.report with events := w.report.events ++ [(w.time, e)] } }
  | .observer number =>
      match w.observers[number]? with
      | some o =>
          let (w, reactions) := react number o.token e o.reactions (w.note (.saw number e))
          { w with observers := w.observers.set number { o with reactions } }
      | none => w

/-- Deliver events in rounds: the listeners of a round are those at its start. -/
def deliverRounds : Nat -> World -> World
  | 0, w => w
  | rounds + 1, w =>
      if w.scheduler.events.isEmpty then w
      else
        let undelivered := { w with scheduler := { w.scheduler with events := [] } }
        deliverRounds rounds (w.scheduler.events.foldl (w.registry.broadcast tell) undelivered)

/-- How often observers may still react. -/
def reactionsLeft (w : World) : Nat :=
  (w.observers.flatMap (·.reactions)).foldl (fun n r => n + r.left) 0

/-- Deliver all events.  Every round but the last one uses up a reaction. -/
def deliver (w : World) : World :=
  w.deliverRounds (w.reactionsLeft + 2)

def call (w : World) (change : Call a) : World × a :=
  perform deliver w change

def host : Scheduler.Host Processor Json.Value Json.Value World :=
  { state := World.scheduler, now := World.now, call := World.call, write := World.write }

/-!
# Observers
-/

def subscribe (w : World) (name : String) (reactions : List Reaction) : World × Nat :=
  let number := w.observers.length
  let (registry, token) := w.registry.subscribe (.observer number)
  ({ w with registry, observers := w.observers ++ [{ name, token, reactions }] }, number)

def unsubscribe (w : World) (number : Nat) : World × Bool :=
  match w.observers[number]? with
  | some o =>
      let (registry, found) := w.registry.unsubscribe o.token
      ({ w with registry }, found)
  | none => (w, false)

def setScript (w : World) (script : Script) : World :=
  let processor : Processor := { number := w.nextProcessor, script }
  ({ w with nextProcessor := w.nextProcessor + 1 }.call (·.setProcessor processor)).1

end World
end Simulation
end CodeSurvey
