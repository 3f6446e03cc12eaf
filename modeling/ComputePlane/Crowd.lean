import ComputePlane.World

/-!
# Operations side by side

Several operations that start at once in one world. Each goes on until it has to wait; what becomes
ready at one time goes on in the order in which it became ready. Jobs of one datacenter run one
after another on its worker, which lets the others go on in the middle of every change.
-/

namespace ComputePlane

/-! ## States -/

/-- How far a submitted job is: in its queue, waiting for the cloud, or in the middle of a change,
with the failure it is to end in. -/
inductive JobStage where
  | queued
  | made (pending : Pending)
  | begun (pending : Pending) (failure : Option Error)
  deriving Repr

/-- An operation that is going on, by what it waits for. -/
inductive Task (α : Type) where
  | ready (program : Program α)
  | calling (c : Call) (pending : Pending) (next : c.Result → Program α)
  | submitted (c : Call) (stage : JobStage) (next : c.Result → Program α)
  | pausing (next : Unit → Program α)
  | watching (q : Question) (asking : Asking) (next : Bool → Program α)
  | gathering (t : Topic) (g : Gathering t) (next : Except Error (List t.Value) → Program α)
  | fetching (f : Fetching) (next : Except Error Sources → Program α)
  | closing (workers : List String) (next : Unit → Program α)
  | finished (value : α)
  /-- A watch that overflowed has broken it off. -/
  | broken

/-- Something that can go on: an operation by its number, or the worker of a datacenter. -/
inductive Mover where
  | task (number : Nat)
  | worker (datacenter : String)
  deriving DecidableEq, Repr

/-- Operations side by side in a world. Timers are in the order in which they were set. -/
structure Crowd (α : Type) where
  world : World
  tasks : List (Task α)
  ready : List Mover
  timers : List (Nat × Mover)

namespace Crowd

variable {α : Type}

/-- The crowd with an operation waiting for something. -/
def put (c : Crowd α) (i : Nat) (t : Task α) : Crowd α :=
  { c with tasks := c.tasks.set i t }

def setTimer (c : Crowd α) (time : Nat) (m : Mover) : Crowd α :=
  { c with timers := c.timers ++ [(time, m)] }

/-- The crowd with someone ready to go on after all others. -/
def wake (c : Crowd α) (m : Mover) : Crowd α :=
  { c with ready := c.ready ++ [m] }

def withBackend (c : Crowd α) (b : Backend) : Crowd α :=
  { c with world := { c.world with backend := b } }

def withQueue (c : Crowd α) (q : JobQueue Nat) : Crowd α :=
  { c with world := { c.world with queue := q } }

/-! ## Operations -/

/-- Goes on with the `i`-th operation until it has to wait. -/
def advance (i : Nat) : Program α → Crowd α → Crowd α
  | .done a, c => c.put i (.finished a)
  | .request (.call call) next, c =>
    let (p, b) := c.world.backend.arrive c.world.now call
    if p.due ≤ c.world.now then
      let (r, b) := b.settle call p
      advance i (next r) (c.withBackend b)
    else ((c.withBackend b).put i (.calling call p next)).setTimer p.due (.task i)
  | .request (.submit dc call) next, c =>
    let idle := ((c.world.queue.worker? dc).map (·.isIdle)).getD true
    match c.world.queue.enqueue dc i with
    | .error e => advance i (next (.error e)) c
    | .ok q =>
      let c := (c.withQueue q).put i (.submitted call .queued next)
      if idle then c.wake (.worker dc) else c
  | .request (.pause d) next, c =>
    let t := ceilMs (c.world.now * millisecond + d)
    if t ≤ c.world.now then advance i (next ()) c
    else (c.put i (.pausing next)).setTimer t (.task i)
  | .request (.await watch policy) next, c =>
    let q := watch.question
    match Asking.poll q c.world.now c.world.backend (Asking.start policy c.world.now) with
    | (.inl e, b) =>
      if e = .overflow then (c.withBackend b).put i .broken
      else advance i (next (e = .reached)) (c.withBackend b)
    | (.inr a, b) => ((c.withBackend b).put i (.watching q a next)).setTimer a.wake (.task i)
  | .request (.gather t width keys) next, c =>
    match Gathering.poll c.world.now c.world.backend (Gathering.start t width keys) with
    | (.inl r, b) => advance i (next r) (c.withBackend b)
    | (.inr g, b) => ((c.withBackend b).put i (.gathering t g next)).setTimer g.wake (.task i)
  | .request .fetch next, c =>
    match Fetching.poll c.world.now c.world.backend Fetching.start with
    | (.inl r, b) => advance i (next r) (c.withBackend b)
    | (.inr f, b) => ((c.withBackend b).put i (.fetching f next)).setTimer f.wake (.task i)
  | .request .close next, c =>
    if c.world.queue.closed then advance i (next ()) c
    else
      let dcs := c.world.queue.handles
      let c := c.withQueue c.world.queue.close
      if c.world.queue.haveEnded dcs then advance i (next ()) c else c.put i (.closing dcs next)

def runTask (c : Crowd α) (i : Nat) : Crowd α :=
  match c.tasks[i]? with
  | some (.ready f) => advance i f c
  | some (.calling call p next) =>
    let (r, b) := c.world.backend.settle call p
    advance i (next r) (c.withBackend b)
  | some (.pausing next) => advance i (next ()) c
  | some (.watching q a next) =>
    match Asking.poll q c.world.now c.world.backend a with
    | (.inl e, b) =>
      if e = .overflow then (c.withBackend b).put i .broken
      else advance i (next (e = .reached)) (c.withBackend b)
    | (.inr a, b) => ((c.withBackend b).put i (.watching q a next)).setTimer a.wake (.task i)
  | some (.gathering t g next) =>
    match Gathering.poll c.world.now c.world.backend g with
    | (.inl r, b) => advance i (next r) (c.withBackend b)
    | (.inr g, b) => ((c.withBackend b).put i (.gathering t g next)).setTimer g.wake (.task i)
  | some (.fetching f next) =>
    match Fetching.poll c.world.now c.world.backend f with
    | (.inl r, b) => advance i (next r) (c.withBackend b)
    | (.inr f, b) => ((c.withBackend b).put i (.fetching f next)).setTimer f.wake (.task i)
  | some (.closing _ next) => advance i (next ()) c
  | some (.submitted ..) => c
  | some (.finished _) => c
  | some .broken => c
  | none => c

/-! ## Workers -/

/-- Whoever closed the job queues goes on once the workers that it waits for have ended. -/
def wakeCloser (c : Crowd α) : Crowd α :=
  (c.tasks.zipIdx.filterMap fun (t, i) =>
    match t with
    | .closing dcs _ => if c.world.queue.haveEnded dcs then some (.task i) else none
    | _ => none).foldl wake c

/-- Hands the result of the `i`-th operation's job out and makes the worker free. -/
def finishJob (c : Crowd α) (dc : String) (i : Nat) (call : Call) (r : call.Result)
    (next : call.Result → Program α) : Crowd α :=
  (((c.withQueue (c.world.queue.finish dc)).put i (.ready (next r))).wake (.task i)).wakeCloser

/-- Goes on with the running job of a datacenter: the crowd, and whether the job is done. -/
def runJob (c : Crowd α) (dc : String) (i : Nat) : Crowd α × Bool :=
  match c.tasks[i]? with
  | some (.submitted call (.made p) next) =>
    if ¬Backend.reaches call p.rule then
      let (r, b) := c.world.backend.settle call p
      ((c.withBackend b).finishJob dc i call r next, true)
    else
      let (failure, cloud) := c.world.backend.cloud.begin call
      let c := c.withBackend { c.world.backend with cloud := cloud }
      if call.changes?.isSome then
        ((c.put i (.submitted call (.begun p failure) next)).wake (.worker dc), false)
      else
        let (r, cloud) := cloud.finish call failure
        let c := c.withBackend { c.world.backend with cloud := cloud }
        (c.finishJob dc i call ((Backend.override? call p.rule).getD r) next, true)
  | some (.submitted call (.begun p failure) next) =>
    let (r, cloud) := c.world.backend.cloud.finish call failure
    let c := c.withBackend { c.world.backend with cloud := cloud }
    (c.finishJob dc i call ((Backend.override? call p.rule).getD r) next, true)
  | _ => (c.withQueue (c.world.queue.finish dc), true)

/-- Makes the call of a job that starts. -/
def startJob (c : Crowd α) (i : Nat) : Crowd α × Nat :=
  match c.tasks[i]? with
  | some (.submitted call .queued next) =>
    let (p, b) := c.world.backend.arrive c.world.now call
    ((c.withBackend b).put i (.submitted call (.made p) next), p.due)
  | _ => (c, c.world.now)

/-- Starts jobs of a datacenter until one has to wait, at most `count` of them. -/
def serve (dc : String) : Nat → Crowd α → Crowd α
  | 0, c => c
  | count + 1, c =>
    match c.world.queue.start? dc with
    | none => c
    | some (i, q) =>
      let (c, due) := (c.withQueue q).startJob i
      if c.world.now < due then c.setTimer due (.worker dc)
      else
        match c.runJob dc i with
        | (c, true) => serve dc count c
        | (c, false) => c

def runWorker (c : Crowd α) (dc : String) : Crowd α :=
  let waiting := (c.world.queue.pending dc).length
  match c.world.queue.running? dc with
  | none => serve dc waiting c
  | some i =>
    match c.runJob dc i with
    | (c, true) => serve dc waiting c
    | (c, false) => c

/-! ## Time -/

/-- Lets the clock jump to the next timer; those that end then fire. -/
def fire (c : Crowd α) : Crowd α :=
  match (c.timers.map (·.1)).min? with
  | none => c
  | some t =>
    { c with
      world := { c.world with now := max c.world.now t }
      ready := (c.timers.filter (·.1 = t)).map (·.2)
      timers := c.timers.filter (·.1 ≠ t) }

/-- One move: of the first that is ready, or else of the clock. -/
def move (c : Crowd α) : Crowd α :=
  match c.ready with
  | [] => c.fire
  | .task i :: rest => { c with ready := rest }.runTask i
  | .worker dc :: rest => { c with ready := rest }.runWorker dc

/-- Nobody can go on any more. -/
def isQuiet (c : Crowd α) : Bool :=
  c.ready.isEmpty && c.timers.isEmpty

/-- Moves until nobody can go on, at most `count` of them. -/
def moves : Nat → Crowd α → Crowd α
  | 0, c => c
  | count + 1, c => if c.isQuiet then c else moves count c.move

/-- Operations that start at once in a world. -/
def start (w : World) (programs : List (Program α)) : Crowd α :=
  ⟨w, programs.map .ready, (List.range programs.length).map .task, []⟩

def results (c : Crowd α) : List (Option α) :=
  c.tasks.map fun
    | .finished a => some a
    | _ => none

/-- More moves than the waits of any operation take. -/
def patience : Nat := Number.tenTo 12

end Crowd

/-- The run of operations that start at once: their results, and the world after them. -/
def World.runAll {α : Type} (w : World) (programs : List (Program α)) : List (Option α) × World :=
  let c := (Crowd.start w programs).moves Crowd.patience
  (c.results, c.world)

end ComputePlane
