import ComputePlane.Program
import ComputePlane.Provisioning.Queue

/-!
# Operations one after another

A world is a backend, the job queues and a clock. An operation that runs alone in it meets no other:
each of its jobs starts when it is submitted, and the clock moves only while it waits.

A watch that overflows breaks its operation off, which then has no result (`World.run?`). Where none
does, `World.run` is the run without regard to overflows.
-/

namespace ComputePlane

/-- A backend, the job queues and a clock in milliseconds. -/
structure World where
  now : Nat := 0
  backend : Backend := {}
  queue : JobQueue Nat := .empty
  deriving Repr

namespace World

def call (w : World) (c : Call) : c.Result × World :=
  let (p, b) := w.backend.arrive w.now c
  let (r, b) := b.settle c p
  (r, { w with now := p.due, backend := b })

/-- A call as the only job of a datacenter's queue. -/
def submit (w : World) (dc : String) (c : Call) : c.Result × World :=
  match w.queue.enqueue dc 0 with
  | .error e => (.error e, w)
  | .ok queued =>
    match queued.start? dc with
    | none => (.error (.jobAborted dc), { w with queue := queued })
    | some (_, running) =>
      let (r, w) := { w with queue := running }.call c
      (r, { w with queue := w.queue.finish dc })

/-- Something that goes on at certain times until it has a result, at most `count` times. -/
def drive {σ β : Type} (poll : Nat → Backend → σ → (β ⊕ σ) × Backend) (wake : σ → Nat) (late : β) :
    Nat → World → σ → β × World
  | 0, w, _ => (late, w)
  | count + 1, w, s =>
    match poll w.now w.backend s with
    | (.inl result, b) => (result, { w with backend := b })
    | (.inr s, b) =>
      drive poll wake late count { w with now := max w.now (wake s), backend := b } s

/-- A watch until the deadline of a policy: how it ends, and the world then. -/
def watch (w : World) (watch : Watch) (policy : PollPolicy) : PollEnd × World :=
  drive (Asking.poll watch.question) Asking.wake .timedOut (Asking.patience policy) w
    (Asking.start policy w.now)

/-- What the world gives for a request. -/
def perform (w : World) : (r : Request) → r.Response × World
  | .call c => w.call c
  | .submit dc c => w.submit dc c
  | .pause d => ((), { w with now := ceilMs (w.now * millisecond + d) })
  | .await watch policy => (w.watch watch policy).map (decide <| · = .reached) id
  | .gather t width keys =>
    drive Gathering.poll Gathering.wake (.error .request) (keys.length + 1) w
      (Gathering.start t width keys)
  | .fetch =>
    drive Fetching.poll Fetching.wake (.error .request) Fetching.patience w Fetching.start
  | .close => ((), { w with queue := w.queue.close })

theorem perform_await (w : World) (watch : Watch) (policy : PollPolicy) :
    w.perform (.await watch policy) = (w.watch watch policy).map (decide <| · = .reached) id := rfl

theorem perform_await_fst (w : World) (watch : Watch) (policy : PollPolicy) :
    (w.perform (.await watch policy)).1 = decide ((w.watch watch policy).1 = .reached) := by
  rw [perform_await, Prod.map_fst]

theorem perform_await_snd (w : World) (watch : Watch) (policy : PollPolicy) :
    (w.perform (.await watch policy)).2 = (w.watch watch policy).2 := by
  rw [perform_await, Prod.map_snd, id_eq]

/-- The request is a watch that overflows. -/
def overflows (w : World) : Request → Bool
  | .await watch policy => (w.watch watch policy).1 = .overflow
  | _ => false

/-- The run of an operation: its result, unless a watch that overflows breaks it off, and the world
after it. -/
def run? {α : Type} (w : World) : Program α → Option α × World
  | .done a => (some a, w)
  | .request r next =>
    let (x, w') := w.perform r
    if w.overflows r then (none, w') else w'.run? (next x)
termination_by structural f => f

theorem run?_request {α : Type} (w : World) (r : Request) (next : r.Response → Program α) :
    w.run? (.request r next) =
      if w.overflows r then (none, (w.perform r).2)
      else (w.perform r).2.run? (next (w.perform r).1) := rfl

/-- The run of an operation none of whose watches overflows: its result, and the world after it. A
watch that does would count as one that has timed out. -/
def run {α : Type} (w : World) : Program α → α × World
  | .done a => (a, w)
  | .request r next =>
    let (x, w) := w.perform r
    w.run (next x)
termination_by structural f => f

/-- The world with its record of calls empty. -/
def forgetLog (w : World) : World :=
  { w with backend := { w.backend with log := [] } }

end World

end ComputePlane
