import ComputePlane.Number.Digits
import ComputePlane.Provisioning.Queue

/-!
# Scripts of provisioning jobs

A script submits jobs that take known times, waits for them and closes the queues; its run tells
when each job starts and ends. Only jobs and pauses take time. What becomes ready at one time goes
on in the order in which it became ready. Timers that end at one time fire in the order in which
they were set, but that of the script before all others.
-/

namespace ComputePlane

namespace Provisioning

/-! ## Scripts -/

/-- How a job ends. -/
inductive Ending where
  | returns (result : Except Error String)
  /-- It breaks off after its time. -/
  | breaksOff
  /-- It breaks off before it has started to run. -/
  | breaksAtStart
  deriving Repr

/-- A job for a datacenter that takes a number of milliseconds. -/
structure Job where
  datacenter : String
  name : String
  duration : Nat
  ending : Ending
  deriving Repr

/-- A step of a script. -/
inductive Step where
  /-- Submit a job and wait for its result. -/
  | run (job : Job)
  /-- Submit a job and go on. -/
  | submit (job : Job)
  /-- Submit a job whose result nobody wants. -/
  | abandon (job : Job)
  | sleep (ms : Nat)
  | close
  /-- Wait for the results of all submitted jobs. -/
  | join
  deriving Repr

/-- What a step gives. -/
inductive Reply where
  | ok
  | queued
  | result (value : Except Error String)
  | results (values : List (String × Except Error String))
  deriving Repr

/-- A finished step: when it ended, the queues at that time, and what it gave. -/
structure Entry where
  time : Nat
  queues : Nat
  closed : Bool
  reply : Reply
  deriving Repr

/-- Something a job noted. -/
structure Event where
  time : Nat
  datacenter : String
  note : String
  deriving Repr

/-! ## The state of a run -/

/-- An accepted job with its number. -/
structure Ticket where
  number : Nat
  job : Job
  deriving Repr

/-- What a script waits for before its next step. -/
inductive Blocked where
  | sleep
  | job (number : Nat)
  | join (numbers : List Nat)
  /-- The workers of datacenters are to end. -/
  | close (workers : List String)
  deriving Repr

/-- Something that can go on: the script, or the worker of a datacenter. -/
inductive Actor where
  | script
  | worker (datacenter : String)
  deriving DecidableEq, Repr

/-- A timer: when it fires, and who goes on then. -/
structure Timer where
  time : Nat
  actor : Actor
  deriving Repr

/-- A run that is going on. `timers` are in the order in which they were set, `entries` and `events`
in the order in which they came about, `submitted` holds the jobs not yet joined. -/
structure Run where
  now : Nat
  queue : JobQueue Ticket
  ready : List Actor
  timers : List Timer
  steps : List Step
  blocked : Option Blocked
  tickets : Nat
  submitted : List Ticket
  results : List (Nat × Except Error String)
  entries : List Entry
  events : List Event
  deriving Repr

namespace Run

def start (steps : List Step) : Run :=
  ⟨0, .empty, [.script], [], steps, none, 0, [], [], [], []⟩

def finishStep (r : Run) (reply : Reply) : Run :=
  { r with
    blocked := none
    entries := r.entries ++ [⟨r.now, r.queue.queueCount, r.queue.closed, reply⟩] }

def setTimer (r : Run) (ms : Nat) (a : Actor) : Run :=
  { r with timers := r.timers ++ [⟨r.now + ms, a⟩] }

def note (r : Run) (t : Ticket) (what : String) : Run :=
  { r with events := r.events ++ [⟨r.now, t.job.datacenter, t.job.name ++ " " ++ what⟩] }

/-- Hands out the result of a job. -/
def answer (r : Run) (t : Ticket) (result : Except Error String) : Run :=
  { r with results := r.results ++ [(t.number, result)] }

/-- The result of the job of a number, if it is done. -/
def result? (r : Run) (number : Nat) : Option (Except Error String) :=
  r.results.lookup number

/-- What the script gets for what it waits for, if that has come. -/
def reply? (r : Run) : Blocked → Option Reply
  | .sleep => some .ok
  | .job n => (r.result? n).map .result
  | .join ns =>
    let tickets := r.submitted.filter fun t => ns.contains t.number
    (tickets.mapM fun t => (r.result? t.number).map (t.job.name, ·)).map .results
  | .close dcs => if r.queue.haveEnded dcs then some .ok else none

/-! ## Workers -/

def finishJob (r : Run) (t : Ticket) : Run :=
  let r := { r.note t "end" with queue := r.queue.finish t.job.datacenter }
  match t.job.ending with
  | .returns result => r.answer t result
  | _ => r.answer t (.error (.jobAborted t.job.datacenter))

/-- Takes the worker of a datacenter down: its running job and those that wait are aborted. -/
def crashJob (r : Run) (t : Ticket) : Run :=
  let dc := t.job.datacenter
  (t :: r.queue.pending dc).foldl (fun r t => r.answer t (.error (.jobAborted dc)))
    { r with queue := r.queue.crash dc }

/-- Runs jobs of a datacenter until one takes time, at most `count` of them. -/
def serve (dc : String) : Nat → Run → Run
  | 0, r => r
  | count + 1, r =>
    match r.queue.start? dc with
    | none => r
    | some (t, q) =>
      let r := { r with queue := q }.note t "start"
      match t.job.ending, t.job.duration with
      | .breaksAtStart, _ => r.crashJob t
      | _, 0 => serve dc count (r.finishJob t)
      | _, ms => r.setTimer ms (.worker dc)

/-- Wakes the script if what it waits for has come. -/
def wakeScript (r : Run) : Run :=
  match r.blocked with
  | none => r
  | some .sleep => r
  | some b =>
    if (r.reply? b).isSome && !r.ready.contains .script then
      { r with ready := r.ready ++ [.script] }
    else r

def runWorker (r : Run) (dc : String) : Run :=
  let r := match r.queue.running? dc with
    | some t => r.finishJob t
    | none => r
  (r.serve dc (r.queue.pending dc).length).wakeScript

/-! ## The script -/

/-- Submits a job: the run with the job's ticket, or why it is refused. A worker that had nothing to
do becomes ready. -/
def submit (r : Run) (job : Job) : Except Error (Ticket × Run) := do
  let t : Ticket := ⟨r.tickets, job⟩
  let idle := ((r.queue.worker? job.datacenter).map (·.isIdle)).getD true
  let q ← r.queue.enqueue job.datacenter t
  return (t, { r with
    queue := q
    tickets := r.tickets + 1
    ready := if idle then r.ready ++ [.worker job.datacenter] else r.ready })

/-- Waits for something, unless it has come already. -/
def await (r : Run) (b : Blocked) : Run :=
  match r.reply? b with
  | some reply => r.finishStep reply
  | none => { r with blocked := some b }

def beginStep (r : Run) : Step → Run
  | .run job =>
    match r.submit job with
    | .ok (t, r) => { r with blocked := some (.job t.number) }
    | .error e => r.finishStep (.result (.error e))
  | .submit job =>
    match r.submit job with
    | .ok (t, r) => { r with submitted := r.submitted ++ [t] }.finishStep .queued
    | .error e => r.finishStep (.result (.error e))
  | .abandon job =>
    match r.submit job with
    | .ok (_, r) => r.finishStep .queued
    | .error e => r.finishStep (.result (.error e))
  | .sleep 0 => r.finishStep .ok
  | .sleep ms => { r.setTimer ms .script with blocked := some .sleep }
  | .close =>
    if r.queue.closed then r.finishStep .ok
    else { r with queue := r.queue.close }.await (.close r.queue.handles)
  | .join =>
    let r := r.await (.join (r.submitted.map (·.number)))
    if r.blocked.isNone then { r with submitted := [] } else r

/-- Begins steps until one has to wait. -/
def runSteps (r : Run) : List Step → Run
  | [] => { r with steps := [] }
  | s :: rest =>
    let r := r.beginStep s
    if r.blocked.isSome then { r with steps := rest } else r.runSteps rest

def runScript (r : Run) : Run :=
  match r.blocked with
  | none => r.runSteps r.steps
  | some b =>
    match r.reply? b with
    | none => r
    | some reply =>
      let joined := match b with
        | .join _ => true
        | _ => false
      let r := r.finishStep reply
      { r with submitted := if joined then [] else r.submitted }.runSteps r.steps

/-! ## Time -/

/-- Lets the clock jump to the next timer; those that end then fire. -/
def fire (r : Run) : Run :=
  match (r.timers.map (·.time)).min? with
  | none => r
  | some t =>
    let fired := (r.timers.filter (·.time = t)).map (·.actor)
    { r with
      now := t
      ready := fired.filter (· = .script) ++ fired.filter (· ≠ .script)
      timers := r.timers.filter (·.time ≠ t) }

/-- One move: of the first actor that is ready, or else of the clock. -/
def move (r : Run) : Run :=
  match r.ready with
  | [] => r.fire
  | .script :: rest => { r with ready := rest }.runScript
  | .worker dc :: rest => { r with ready := rest }.runWorker dc

/-- A number of moves. -/
def moves : Nat → Run → Run
  | 0, r => r
  | n + 1, r => moves n r.move

/-- The finished run of a script. Each step moves the script, a worker and the clock at most twice
each. -/
def ofSteps (steps : List Step) : Run :=
  (start steps).moves (8 * (steps.length + 1))

end Run

end Provisioning

end ComputePlane
