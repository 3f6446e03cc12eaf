import ComputePlane.Lifecycle.Basic

/-!
# Power operations

Restarting, starting and stopping a node. Each looks at the node first and does nothing where there
is nothing to do.
-/

namespace ComputePlane.Lifecycle

open Program

/-- Restarts a node, unless the cloud is still changing it. -/
def reboot (s : AdapterSettings) (text : String) : Operation Unit := do
  let node ← getNode text
  if node.state.any (·.isTransitional) then return
  submit node.id.datacenter (.rebootServer node.id)
  let _ ← awaitAvailable s (.server node.id)

def resume (s : AdapterSettings) (text : String) : Operation Unit := do
  let node ← getNode text
  if node.vmState = some .running then return
  submit node.id.datacenter (.startServer node.id)
  let _ ← awaitRunning s node.id

/-- Stops a node, unless it is shut off. One that is only shut down is stopped as well. -/
def suspend (s : AdapterSettings) (text : String) : Operation Unit := do
  let node ← getNode text
  if node.vmState = some .shutoff then return
  submit node.id.datacenter (.stopServer node.id)
  let _ ← awaitSuspended s node.id

end ComputePlane.Lifecycle
