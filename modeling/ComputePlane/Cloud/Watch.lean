import ComputePlane.Cloud.Backend
import ComputePlane.Poll

/-!
# Watching resources

What is asked of the cloud again and again until it has come about: that a resource is in a state,
that a server is running or not, that a server is gone. A resource that is absent or tells no state,
and a call that fails, mean "not yet".
-/

namespace ComputePlane

/-! ## Questions -/

/-- A call, and which of its results mean yes. -/
structure Question where
  call : Call
  holds : call.Result → Bool

inductive Watch where
  | state (resource : ResourceRef) (target : State)
  | status (server : NodeId) (target : VmState)
  | gone (server : NodeId)
  deriving DecidableEq, Repr

namespace Watch

/-- The resource found tells the state. -/
def inState {α : Type} (target : State) : Except Error (Option (Resource α)) → Bool
  | .ok (some r) => r.state = some target
  | _ => false

/-- The question that a watch asks. -/
def question : Watch → Question
  | state (.datacenter id) target => ⟨.getDatacenter id, inState target⟩
  | state (.volume v) target => ⟨.getVolume v, inState target⟩
  | state (.server s) target =>
    ⟨.getServer s, fun r => inState target (r.map (·.map (·.toResource)))⟩
  | state (.nic n) target => ⟨.getNic n, inState target⟩
  | state (.snapshot id) target => ⟨.getSnapshot id, inState target⟩
  | status server target =>
    ⟨.getServer server, fun
      | .ok (some s) => s.properties.vmState = some target
      | _ => false⟩
  | gone server =>
    ⟨.getServer server, fun
      | .ok none => true
      | _ => false⟩

end Watch

/-! ## Asking until the deadline -/

/-- A watch that is going on: between two calls until a time, waiting for an answer, or in the pause
at whose end it overflows. -/
inductive Asking where
  | pausing (wait : Wait) (wake : Nat)
  | asking (wait : Wait) (pending : Pending)
  | breaking (wake : Nat)

namespace Asking

/-- The time at which the watch goes on. -/
def wake : Asking → Nat
  | pausing _ wake => wake
  | asking w p => min p.due w.cutoff
  | breaking wake => wake

/-- What follows an answer at the time `now`. -/
def answered (now : Nat) (w : Wait) (yes : Bool) : PollEnd ⊕ Asking :=
  if yes then .inl .reached
  else
    match w.next now with
    | .timedOut => .inl .timedOut
    | .overflow wake => .inr (.breaking wake)
    | .again wake w => .inr (.pausing w wake)

/-- Goes on with a call that has been made. A call that is still open when the deadline is noticed
is dropped. -/
def settle (q : Question) (now : Nat) (b : Backend) (w : Wait) (p : Pending) :
    (PollEnd ⊕ Asking) × Backend :=
  if p.due ≤ now then
    let (r, b) := b.settle q.call p
    (answered now w (q.holds r), b)
  else if w.cutoff ≤ now then (.inl .timedOut, b)
  else (.inr (.asking w p), b)

/-- Goes on at the time `now`. -/
def poll (q : Question) (now : Nat) (b : Backend) : Asking → (PollEnd ⊕ Asking) × Backend
  | pausing w wake =>
    if now < wake then (.inr (.pausing w wake), b)
    else
      let (p, b) := b.arrive now q.call
      settle q now b w p
  | asking w p => settle q now b w p
  | breaking wake => if now < wake then (.inr (.breaking wake), b) else (.inl .overflow, b)

/-- A watch that starts at the time `now`. It overflows at once if no clock can show its
deadline. -/
def start (policy : PollPolicy) (now : Nat) : Asking :=
  match Wait.begin? policy now with
  | some w => .pausing w now
  | none => .breaking now

theorem start_eq (policy : PollPolicy) (now : Nat) :
    start policy now = if now * millisecond + policy.timeout < clockLimit then
      .pausing (Wait.begin policy now) now else .breaking now := by
  rw [start, Wait.begin?_eq]
  by_cases h : now * millisecond + policy.timeout < clockLimit
  · rw [if_pos h, if_pos h]
  · rw [if_neg h, if_neg h]

/-- A bound on how often the watch goes on. -/
def patience (policy : PollPolicy) : Nat :=
  ceilMs policy.timeout + 2

end Asking

end ComputePlane
