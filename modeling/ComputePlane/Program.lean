import ComputePlane.Cloud.Listing
import ComputePlane.Cloud.Watch

/-!
# Operations as programs

An operation on nodes is a program over a few requests: a call made directly, a call submitted as a
provisioning job of a datacenter, a pause, a watch, a listing, and the closing of the job queues.
What answers the requests is left open, so the same operation can be run alone, beside others, or
against any answers at all.
-/

namespace ComputePlane

/-- What an operation asks for. -/
inductive Request where
  /-- Make a call. -/
  | call (call : Call)
  /-- Make a call as a job of a datacenter. -/
  | submit (datacenter : String) (call : Call)
  /-- Wait a number of nanoseconds. -/
  | pause (duration : Nat)
  /-- Watch until the deadline of a policy. -/
  | await (watch : Watch) (policy : PollPolicy)
  /-- Look up many keys. -/
  | gather (topic : Topic) (width : Nat) (keys : List String)
  /-- Fetch all images and snapshots. -/
  | fetch
  /-- Refuse further jobs, and wait for those accepted unless that was asked for before. -/
  | close

/-- The type of what a request gives. -/
abbrev Request.Response : Request → Type
  | call c => c.Result
  | submit _ c => c.Result
  | pause _ => Unit
  | await .. => Bool
  | gather t _ _ => Except Error (List t.Value)
  | fetch => Except Error Sources
  | close => Unit

/-- A program over requests. -/
inductive Program (α : Type) where
  | done (value : α)
  | request (r : Request) (next : r.Response → Program α)

namespace Program

variable {α β : Type}

/-- The program that goes on with another one. -/
def bind : Program α → (α → Program β) → Program β
  | done a, f => f a
  | request r next, f => request r fun x => (next x).bind f

instance : Monad Program where
  pure := done
  bind := bind

def ask (r : Request) : Program r.Response := request r done

theorem bind_done (x : Program α) : x.bind done = x := by
  induction x with
  | done a => rfl
  | request r next ih => simp only [bind]; congr 1; funext y; exact ih y

theorem bind_assoc {γ : Type} (x : Program α) (f : α → Program β) (g : β → Program γ) :
    (x.bind f).bind g = x.bind fun a => (f a).bind g := by
  induction x with
  | done a => rfl
  | request r next ih => simp only [bind]; congr 1; funext y; exact ih y

/-- An operation that can fail. -/
abbrev Operation (α : Type) := ExceptT Error Program α

/-- A call made directly. -/
def call (c : Call) : Operation c.Answer := ExceptT.mk (ask (.call c))

/-- A call made as a job of a datacenter. -/
def submit (dc : String) (c : Call) : Operation c.Answer := ExceptT.mk (ask (.submit dc c))

def gather (t : Topic) (width : Nat) (keys : List String) : Operation (List t.Value) :=
  ExceptT.mk (ask (.gather t width keys))

def fetch : Operation Sources := ExceptT.mk (ask .fetch)

def pause (duration : Nat) : Program Unit := ask (.pause duration)

/-- A watch: whether what is watched came about in time. -/
def await (policy : PollPolicy) (w : Watch) : Program Bool := ask (.await w policy)

def close : Program Unit := ask .close

end Program

end ComputePlane
