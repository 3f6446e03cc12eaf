import Mathlib.Data.List.Induction
import ComputePlane.Proofs.Provisioning.Queue

/-!
# Job queues in use

Any number of callers submit jobs and close the queues, in any order and at any time; they may leave
before their results have come. Jobs return, fail or break off as they like. What happens is an
`Event`; a `Step` is one event, and a `Run` is any sequence of them that the queues allow.

Each event is one that nothing else comes between: a submission and a closing hold the lock of the
queues, and a worker takes the next job only when it is done with the last. A job that takes its
worker down counts as running until the queue behind it is gone, so whatever is accepted in between
is lost with the rest of that queue.
-/

namespace ComputePlane

namespace Manager

/-! ## Events -/

/-- What happens to job queues and those who use them. A job is known by its number, and its caller
as well; a caller whose job is refused has no number. -/
inductive Event (β : Type) where
  | accept (dc : String) (job : Nat)
  | refuse (dc : String) (reason : Error)
  | start (dc : String) (job : Nat)
  | finish (dc : String) (job : Nat) (result : Except Error β)
  /-- A running job breaks off. -/
  | breakOff (dc : String) (job : Nat)
  /-- A job breaks off before it has started to run, and its worker with it. -/
  | crash (dc : String) (job : Nat)
  /-- A caller gets its result. -/
  | answer (job : Nat) (result : Except Error β)
  /-- A caller goes away without its result. -/
  | leave (job : Nat)
  | close
  /-- The queues are closed again, which returns at once. -/
  | closeAgain
  /-- The first closing returns, having waited for each worker to end. -/
  | closeReturns

namespace Event

variable {β : Type}

/-- The job that is accepted for a datacenter. -/
def accepts? (dc : String) : Event β → Option Nat
  | accept d n => if d = dc then some n else none
  | _ => none

/-- The job that starts for a datacenter. -/
def starts? (dc : String) : Event β → Option Nat
  | start d n => if d = dc then some n else none
  | _ => none

/-- The job of a datacenter that ends, in whatever way. -/
def ends? (dc : String) : Event β → Option Nat
  | finish d n _ => if d = dc then some n else none
  | breakOff d n => if d = dc then some n else none
  | crash d n => if d = dc then some n else none
  | _ => none

/-- A job takes its worker down. -/
def isCrash : Event β → Bool
  | crash .. => true
  | _ => false

def isLeave : Event β → Bool
  | leave _ => true
  | _ => false

end Event

end Manager

/-! ## Runs -/

/-- Job queues in use: the queues of job numbers, the number of jobs accepted so far, the results
that have come, the callers that wait no more, and the datacenters whose workers the first closing
waits for, while it has yet to return. -/
structure Manager (β : Type) where
  queue : JobQueue Nat := .empty
  accepted : Nat := 0
  results : List (Nat × Except Error β) := []
  gone : List Nat := []
  closing : Option (List String) := none

namespace Manager

variable {β : Type}

/-- What each caller of an aborted job gets. -/
def aborted (dc : String) (jobs : List Nat) : List (Nat × Except Error β) :=
  jobs.map fun n => (n, .error (.jobAborted dc))

/-- One event and what it changes. -/
inductive Step : Manager β → Event β → Manager β → Prop where
  | accept {m dc q} (h : m.queue.enqueue dc m.accepted = .ok q) :
      Step m (.accept dc m.accepted) { m with queue := q, accepted := m.accepted + 1 }
  | refuse {m dc e} (h : m.queue.enqueue dc m.accepted = .error e) : Step m (.refuse dc e) m
  | start {m dc n q} (h : m.queue.start? dc = some (n, q)) :
      Step m (.start dc n) { m with queue := q }
  | finish {m dc n r} (h : m.queue.running? dc = some n) :
      Step m (.finish dc n r)
        { m with queue := m.queue.finish dc, results := m.results ++ [(n, r)] }
  | breakOff {m dc n} (h : m.queue.running? dc = some n) :
      Step m (.breakOff dc n)
        { m with queue := m.queue.finish dc, results := m.results ++ aborted dc [n] }
  | crash {m dc n} (h : m.queue.running? dc = some n) :
      Step m (.crash dc n)
        { m with
          queue := m.queue.crash dc
          results := m.results ++ aborted dc (n :: m.queue.pending dc) }
  | answer {m n r} (h : m.results.lookup n = some r) (hn : n ∉ m.gone) :
      Step m (.answer n r) { m with gone := n :: m.gone }
  | leave {m n} (h : n < m.accepted) (hn : n ∉ m.gone) :
      Step m (.leave n) { m with gone := n :: m.gone }
  | close {m} (h : m.queue.closed = false) :
      Step m .close { m with queue := m.queue.close, closing := some m.queue.handles }
  | closeAgain {m} (h : m.queue.closed = true) : Step m .closeAgain m
  | closeReturns {m dcs} (h : m.closing = some dcs) (hd : m.queue.haveEnded dcs = true) :
      Step m .closeReturns { m with closing := none }

/-- The events from the start on, and the state they lead to. -/
inductive Run : List (Event β) → Manager β → Prop where
  | nil : Run [] {}
  | snoc {es m e m'} (h : Run es m) (hs : Step m e m') : Run (es ++ [e]) m'

theorem Run.of_snoc {es : List (Event β)} {e : Event β} {m : Manager β} (h : Run (es ++ [e]) m) :
    ∃ m', Run es m' ∧ Step m' e m := by
  generalize hg : es ++ [e] = gs at h
  cases h with
  | nil => simp at hg
  | snoc h hs =>
    obtain ⟨rfl, heq⟩ := List.append_inj' hg rfl
    cases heq
    exact ⟨_, h, hs⟩

/-- What happened first is a run as well. -/
theorem Run.of_append {es fs : List (Event β)} {m : Manager β} (h : Run (es ++ fs) m) :
    ∃ m', Run es m' := by
  induction fs using List.reverseRecOn generalizing m with
  | nil => exact ⟨m, by simpa using h⟩
  | append_singleton fs f ih =>
    rw [← List.append_assoc] at h
    obtain ⟨m', h, -⟩ := h.of_snoc
    exact ih h

/-- Every event of a run is a step from what the events before it lead to. -/
theorem Run.step_of_append {es fs : List (Event β)} {e : Event β} {m : Manager β}
    (h : Run (es ++ e :: fs) m) : ∃ m₁ m₂, Run es m₁ ∧ Step m₁ e m₂ := by
  rw [← List.singleton_append, ← List.append_assoc] at h
  obtain ⟨m₂, h⟩ := h.of_append
  obtain ⟨m₁, h, hs⟩ := h.of_snoc
  exact ⟨m₁, m₂, h, hs⟩

end Manager

end ComputePlane
