import CodeSurvey.Simulation.World

/-!
# The course of a simulation

One turn after the other is taken while there are any; then the clock moves on to the
next timer.
-/

namespace CodeSurvey
namespace Simulation
namespace World

/-!
# Turns of an attempt
-/

def flight? (w : World) (number : Nat) : Option Flight :=
  w.flights.find? fun f => f.number = number

def updateFlight (w : World) (number : Nat) (f : Flight -> Flight) : World :=
  { w with flights := w.flights.map fun x => if x.number = number then f x else x }

def startFlight (w : World) (f : Flight) : World :=
  let w := w.updateFlight f.number ({ · with since := w.now })
  let limit := f.attempt.limit.millis
  let w := if limit = 0 then w else w.setTimer limit (.timeout f.number)
  w.ask (.call f.number)

/-- The outcome of the attempt is known. -/
def land (w : World) (f : Flight) (found : Except Scheduler.Setback Json.Value) : World :=
  (w.clearTimers [.wake f.number, .timeout f.number]).ask (.finish f.number found)

def countCall (w : World) (processor : Nat) (name : String) : World × Nat :=
  let key := (processor, name)
  let n := (w.callCounts.lookup key).getD 0 + 1
  let others := w.callCounts.filter fun c => c.1 ≠ key
  ({ w with
      callCounts := (key, n) :: others
      report := { w.report with calls := w.report.calls ++ [(name, n)] } }, n)

def callProcessor (w : World) (f : Flight) : World :=
  let name := inputName f.attempt.input
  let (w, n) := w.countCall f.attempt.processor.number name
  let action := f.attempt.processor.script.action name n
  if action.sleep = 0 then w.land f (action.ending.outcome f.attempt.input)
  else
    (w.updateFlight f.number ({ · with ending := action.ending })).setTimer action.sleep
      (.wake f.number)

def finishFlight (w : World) (f : Flight) (found : Except Scheduler.Setback Json.Value) :
    World :=
  let elapsed := Time.Span.ofMillis (w.now - f.since).toNat
  let w := { w with flights := w.flights.filter fun x => x.number ≠ f.number }
  (w.call (·.finishAndStore coding w.now f.attempt.id (f.attempt.outcome found) elapsed)).1

/-!
# Turns of a job
-/

def collect (w : World) (entries : Scheduler.Batch Json.Value) : World × Stage :=
  let entries := entries.look w.scheduler
  match entries.results? with
  | some results => (w, .done (.batch (.ok results)))
  | none => (w, .collecting entries)

def submitBatch (w : World) (inputs : List Json.Value) : World × Stage :=
  match Scheduler.Batch.submit host coding inputs w with
  | (w, .ok entries) => w.collect entries
  | (w, .error refusal) => (w, .done (.batch (.error refusal)))

/-- The stage of a job whose shutdown has come so far; a timer ends the grace. -/
def stageOf (w : World) (number : Nat) (s : Scheduler.Shutdown) : World × Stage :=
  match s with
  | .waiting grace => (w.setTimer grace (.grace number), .shutdown s false)
  | .stopping => (w, .shutdown s false)
  | .stopped => (w, .done .stopped)

def advanceJob (w : World) (number : Nat) : Stage -> World × Stage
  | .submitting inputs => w.submitBatch inputs
  | .collecting entries => w.collect entries
  | .draining => if w.scheduler.isDrained then (w, .done .drained) else (w, .draining)
  | .closing grace =>
      let (w, s) := Scheduler.Shutdown.start host grace w
      w.stageOf number s
  | .shutdown s elapsed =>
      let (w, next) := Scheduler.Shutdown.look host elapsed w s
      if next = s then (w, .shutdown s elapsed)
      else (w.clearTimers [.grace number]).stageOf number next
  | .done result => (w, .done result)

def setJob (w : World) (number : Nat) (job : Job) : World :=
  { w with jobs := w.jobs.set number job }

/-!
# Turns and time
-/

def withFlight (w : World) (number : Nat) (f : Flight -> World) : World :=
  match w.flight? number with
  | some flight => f flight
  | none => w

def take (w : World) : Turn -> World
  | .start number => w.withFlight number w.startFlight
  | .call number => w.withFlight number w.callProcessor
  | .wake number =>
      w.withFlight number fun f => w.land f (f.ending.outcome f.attempt.input)
  | .finish number found => w.withFlight number fun f => w.finishFlight f found
  | .job number =>
      match w.jobs[number]? with
      | some job =>
          let (w, stage) := w.advanceJob number job.stage
          w.setJob number { stage, scheduled := false }
      | none => w

def ring (w : World) (t : Timer) : World :=
  match t.alarm with
  | .wake number => w.ask (.wake number)
  | .timeout number =>
      w.withFlight number fun f =>
        let dropped := w.report.dropped ++ [inputName f.attempt.input]
        { w with report := { w.report with dropped } }.land f (.error .timedOut)
  | .grace number =>
      match w.jobs[number]? with
      | some job =>
          match job.stage with
          | .shutdown s _ =>
              (w.setJob number { job with stage := .shutdown s true }).wakeJob number
          | _ => w
      | none => w

def nextDue (w : World) : Option Int :=
  (w.timers.map (·.due)).min?

def moveTo (w : World) (instant : Int) : World :=
  let (due, later) := w.timers.partition fun t => t.due ≤ instant
  due.foldl ring { w with now := instant, timers := later }

/-- Take the next turn, or move on to the next timer that is due before an instant. -/
def next? (w : World) (bound : Int) : Option World :=
  match w.turns with
  | t :: rest => some ({ w with turns := rest }.take t)
  | [] =>
      match w.nextDue with
      | some due => if due < bound then some (w.moveTo (max w.now due)) else none
      | none => none

/-- Go on until `stop` holds between two turns, or nothing more happens before an instant. -/
def runBefore (stop : World -> Bool) (bound : Int) : Nat -> World -> World
  | 0, w => w
  | fuel + 1, w =>
      if w.turns.isEmpty && stop w then w
      else
        match w.next? bound with
        | some w => runBefore stop bound fuel w
        | none => w

/-- A bound on the turns between two steps of a simulation. -/
def turnLimit : Nat := 100000000

/-- Everything happens that can happen at this instant. -/
def settle (w : World) : World :=
  w.runBefore (fun _ => false) (w.now + 1) turnLimit

def advance (w : World) (millis : Nat) : World :=
  let target := w.now + millis
  let w := w.settle.runBefore (fun _ => false) target turnLimit
  { w with now := target }.settle

/-- Wait for a job, at most for some time; without a result when that passes. -/
def join (w : World) (job limit : Nat) : World × Option JobResult :=
  let target := w.now + limit
  let w := w.runBefore (·.isDone job) target turnLimit
  match w.jobResult? job with
  | some result => (w, some result)
  | none => ({ w with now := target }, none)

end World
end Simulation
end CodeSurvey
