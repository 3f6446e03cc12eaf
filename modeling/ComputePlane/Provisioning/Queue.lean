import ComputePlane.Error

/-!
# Queues of provisioning jobs

The cloud rejects concurrent changes of one datacenter. So each datacenter has a queue, made when
its first job comes, and a worker that carries out the jobs of the queue one at a time, in the order
in which they were accepted. A job that fails while it runs harms only itself; one that fails before
it has started to run takes its worker along, and then the datacenter accepts no further job.
Closing refuses new jobs everywhere, leaves the accepted ones to run, and waits for the workers to
end.

The jobs themselves are of any type `α`.
-/

namespace ComputePlane

/-- The queue of a datacenter with its worker. -/
structure Worker (α : Type) where
  datacenter : String
  pending : List α
  running : Option α
  crashed : Bool
  deriving Repr

namespace Worker

variable {α : Type}

/-- The worker of a datacenter that has had no job. -/
def fresh (dc : String) : Worker α := ⟨dc, [], none, false⟩

def isIdle (w : Worker α) : Bool :=
  w.pending.isEmpty && w.running.isNone

/-- The worker with a job at the end of its queue. -/
def push (w : Worker α) (job : α) : Worker α :=
  { w with pending := w.pending ++ [job] }

/-- The first job that waits, if the worker is free to run it, and the worker that runs it. -/
def start? (w : Worker α) : Option (α × Worker α) :=
  match w.running, w.pending with
  | none, job :: rest => some (job, { w with pending := rest, running := some job })
  | _, _ => none

/-- The worker after the end of its running job. -/
def finish (w : Worker α) : Worker α :=
  { w with running := none }

/-- The worker taken down by its running job. -/
def crash (w : Worker α) : Worker α :=
  { w with pending := [], running := none, crashed := true }

end Worker

/-- The queues of all datacenters that have had a job. Each datacenter has one worker. While the
queues are open, jobs can be sent to every worker and nobody has waited for any to end; the closing
takes away both. -/
structure JobQueue (α : Type) where
  closed : Bool
  workers : List (Worker α)
  /-- The datacenters to whose workers jobs can be sent. -/
  senders : List String
  /-- The datacenters whose workers somebody has yet to wait for. -/
  handles : List String
  nodup : (workers.map (·.datacenter)).Nodup
  senders_eq : senders = if closed then [] else workers.map (·.datacenter)
  handles_eq : handles = if closed then [] else workers.map (·.datacenter)
  deriving Repr

namespace JobQueue

variable {α : Type}

/-- No datacenter has had a job. -/
def empty : JobQueue α := ⟨false, [], [], [], .nil, rfl, rfl⟩

def worker? (q : JobQueue α) (dc : String) : Option (Worker α) :=
  q.workers.find? (·.datacenter = dc)

/-- The datacenters that have had a job. -/
def datacenters (q : JobQueue α) : List String :=
  q.workers.map (·.datacenter)

/-- The worker of a datacenter was taken down. -/
def isCrashed (q : JobQueue α) (dc : String) : Bool :=
  ((q.worker? dc).map (·.crashed)).getD false

/-! ## Changes of a worker -/

/-- The workers with that of a datacenter changed. It stays that of its datacenter. -/
def updateWorkers (dc : String) (f : Worker α → Worker α) (ws : List (Worker α)) :
    List (Worker α) :=
  ws.map fun w => if w.datacenter = dc then { f w with datacenter := w.datacenter } else w

theorem map_datacenter_updateWorkers (dc : String) (f : Worker α → Worker α)
    (ws : List (Worker α)) :
    (updateWorkers dc f ws).map (·.datacenter) = ws.map (·.datacenter) := by
  unfold updateWorkers
  rw [List.map_map]
  refine List.map_congr_left fun w _ => ?_
  dsimp only [Function.comp_apply]
  split <;> rfl

/-- The queues with the worker of a datacenter changed. -/
def update (q : JobQueue α) (dc : String) (f : Worker α → Worker α) : JobQueue α where
  closed := q.closed
  workers := updateWorkers dc f q.workers
  senders := q.senders
  handles := q.handles
  nodup := (map_datacenter_updateWorkers dc f q.workers).symm ▸ q.nodup
  senders_eq := (map_datacenter_updateWorkers dc f q.workers).symm ▸ q.senders_eq
  handles_eq := (map_datacenter_updateWorkers dc f q.workers).symm ▸ q.handles_eq

/-! ## Jobs -/

theorem senders_of_open {q : JobQueue α} (h : q.closed = false) : q.senders = q.datacenters := by
  rw [q.senders_eq, h]
  rfl

theorem handles_of_open {q : JobQueue α} (h : q.closed = false) : q.handles = q.datacenters := by
  rw [q.handles_eq, h]
  rfl

/-- Open queues with one for a datacenter. If it had none, its worker begins. -/
def opened (q : JobQueue α) (dc : String) (h : q.closed = false) : JobQueue α :=
  if hdc : dc ∈ q.senders then q
  else
    { closed := q.closed
      workers := q.workers ++ [.fresh dc]
      senders := q.senders ++ [dc]
      handles := q.handles ++ [dc]
      nodup := by
        rw [senders_of_open h] at hdc
        rw [List.map_append]
        refine List.nodup_append.mpr ⟨q.nodup, by simp, fun d hd d' hd' heq => hdc ?_⟩
        obtain rfl : d' = dc := List.mem_singleton.mp hd'
        exact heq ▸ hd
      senders_eq := by
        rw [senders_of_open h, h, List.map_append]
        rfl
      handles_eq := by
        rw [handles_of_open h, h, List.map_append]
        rfl }

/-- The queues with a job accepted for a datacenter. -/
def enqueue (q : JobQueue α) (dc : String) (job : α) : Except Error (JobQueue α) :=
  if h : q.closed = true then .error .managerClosed
  else
    let q := q.opened dc (Bool.eq_false_iff.mpr h)
    if q.isCrashed dc then .error .managerClosed else .ok (q.update dc (·.push job))

/-- The next job of a datacenter, if its worker is free, and the queues in which it runs. -/
def start? (q : JobQueue α) (dc : String) : Option (α × JobQueue α) := do
  let (job, w) ← (← q.worker? dc).start?
  return (job, q.update dc fun _ => w)

def running? (q : JobQueue α) (dc : String) : Option α := do
  (← q.worker? dc).running

def pending (q : JobQueue α) (dc : String) : List α :=
  ((q.worker? dc).map (·.pending)).getD []

/-- The queues after the end of the running job of a datacenter. -/
def finish (q : JobQueue α) (dc : String) : JobQueue α :=
  q.update dc Worker.finish

/-- The queues after the running job of a datacenter took its worker down. -/
def crash (q : JobQueue α) (dc : String) : JobQueue α :=
  q.update dc Worker.crash

/-- Every accepted job is done. -/
def isDrained (q : JobQueue α) : Bool :=
  q.workers.all Worker.isIdle

/-! ## Closing -/

/-- The queues, accepting no further job. Whoever closes them takes `handles` and waits for these
workers to end. -/
def close (q : JobQueue α) : JobQueue α where
  closed := true
  workers := q.workers
  senders := []
  handles := []
  nodup := q.nodup
  senders_eq := rfl
  handles_eq := rfl

/-- The number of datacenters that have a queue jobs can be sent to. -/
def queueCount (q : JobQueue α) : Nat :=
  q.senders.length

/-- The worker of a datacenter has ended: a job took it down, or it has done all its jobs and none
can be sent to it any more. -/
def hasEnded (q : JobQueue α) (dc : String) : Bool :=
  (q.worker? dc).all fun w => w.crashed || (w.isIdle && !q.senders.contains dc)

/-- The workers of some datacenters have ended. They can be waited for one after another, for one
that has ended does not begin again. -/
def haveEnded (q : JobQueue α) (dcs : List String) : Bool :=
  dcs.all q.hasEnded

end JobQueue

end ComputePlane
