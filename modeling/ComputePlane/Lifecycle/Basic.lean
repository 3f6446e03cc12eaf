import ComputePlane.Program
import ComputePlane.Settings

/-!
# Steps of node operations

The steps that the operations on nodes are made of. All changes are submitted as jobs of the node's
datacenter; the waits between them end at their deadlines, and the operations go on all the same.
-/

namespace ComputePlane.Lifecycle

open Program

/-! ## Reading -/

def getNode (text : String) : Operation Node := do
  let id ← NodeId.parse text
  match ← call (.getServer id) with
  | some server => return ⟨server, id.datacenter⟩
  | none => throw (.notFound "node" text)

/-! ## Changing -/

/-- A change whose failure does not matter. -/
def bestEffort (dc : String) (c : Call) : Program Unit := do
  let _ ← (submit dc c).run

/-- A change for each of several things, whose failures do not matter. -/
def bestEffortAll (dc : String) : List Call → Program Unit
  | [] => return ()
  | c :: cs => do
    bestEffort dc c
    bestEffortAll dc cs

/-! ## Waiting -/

def awaitAvailable (s : AdapterSettings) (r : ResourceRef) : Program Bool :=
  await s.poll (.state r .available)

def awaitRunning (s : AdapterSettings) (id : NodeId) : Program Bool :=
  await s.poll (.status id .running)

/-- Waits for a server to be shut off. -/
def awaitSuspended (s : AdapterSettings) (id : NodeId) : Program Bool :=
  await s.poll (.status id .shutoff)

def awaitGone (s : AdapterSettings) (id : NodeId) : Program Bool :=
  await s.poll (.gone id)

/-- Asks once whether a watch holds. -/
def check (w : Watch) : Program Bool := do
  let result ← (call w.question.call).run
  return w.question.holds result

end ComputePlane.Lifecycle
