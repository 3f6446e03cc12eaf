import ComputePlane.Lifecycle.Basic

/-!
# Destroying nodes

Every attached volume is deleted and then the server, whatever each delete answers. In the end the
server has to be gone. A node that is not there needs no destroying.
-/

namespace ComputePlane.Lifecycle

open Program

def destroy (s : AdapterSettings) (text : String) : Operation Unit := do
  let id ← NodeId.parse text
  match ← call (.getServer id) with
  | none => return
  | some server =>
    let dc := id.datacenter
    bestEffortAll dc (server.volumes.map fun v => .deleteVolume ⟨dc, v.id⟩)
    bestEffort dc (.deleteServer id)
    let gone ← awaitGone s id
    if !gone then
      throw (.invariantViolation ("server " ++ text ++ " still present after delete"))

end ComputePlane.Lifecycle
