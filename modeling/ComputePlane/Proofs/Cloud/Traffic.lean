import ComputePlane.Cloud.Memory

/-!
# Changes that are going on

A change is going on from its beginning to its end, and what the cloud does for it in between does
not touch the record of this (`traffic_begin`, `traffic_finish`).
-/

namespace ComputePlane.MemoryCloud

/-- The datacenters with a change that is going on, and the number of changes that have begun while
another one of their datacenter was. -/
def traffic (c : MemoryCloud) : List String × Nat := (c.inFlight, c.overlaps)

theorem traffic_changeServer (c : MemoryCloud) (id : NodeId) (f : StoredServer → StoredServer) :
    (c.changeServer id f).2.traffic = c.traffic := by
  unfold changeServer
  split <;> rfl

theorem traffic_apply (c : MemoryCloud) (call : Call) : (c.apply call).2.traffic = c.traffic := by
  cases call with
  | deleteServer s =>
    simp only [apply, deleteServer]
    split <;> rfl
  | attachVolume | rebootServer | startServer | stopServer => exact traffic_changeServer ..
  | createNic s r => exact traffic_changeServer ..
  | createFirewallRule n r =>
    simp only [apply, createFirewallRule]
    split
    · rfl
    · split <;> rfl
  | _ => rfl

theorem traffic_begin_of_none (c : MemoryCloud) {call : Call} (h : call.changes? = none) :
    (c.begin call).2.traffic = c.traffic := by
  simp only [begin, h]
  rfl

theorem traffic_begin (c : MemoryCloud) {call : Call} {dc : String} (h : call.changes? = some dc) :
    (c.begin call).2.traffic =
      (dc :: c.inFlight, if c.inFlight.contains dc then c.overlaps + 1 else c.overlaps) := by
  simp only [begin, h]
  rfl

theorem traffic_finish_of_none (c : MemoryCloud) {call : Call} (h : call.changes? = none)
    (failure : Option Error) : (c.finish call failure).2.traffic = c.traffic := by
  cases failure with
  | some e => simp only [finish, h]
  | none =>
    simp only [finish, h]
    exact traffic_apply c call

theorem traffic_finish (c : MemoryCloud) {call : Call} {dc : String}
    (h : call.changes? = some dc) (failure : Option Error) :
    (c.finish call failure).2.traffic = (c.inFlight.erase dc, c.overlaps) := by
  cases failure with
  | some e =>
    simp only [finish, h]
    rfl
  | none =>
    simp only [finish, h]
    exact traffic_apply _ call

/-- A call that names no datacenter is never going on. -/
theorem traffic_call (c : MemoryCloud) {call : Call} (h : call.changes? = none) :
    (c.call call).2.traffic = c.traffic :=
  (traffic_finish_of_none _ h _).trans (traffic_begin_of_none c h)

end ComputePlane.MemoryCloud
