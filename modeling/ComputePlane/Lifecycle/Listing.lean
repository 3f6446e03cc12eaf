import ComputePlane.Lifecycle.Basic

/-!
# Listings

The nodes, images and locations that there are.
-/

namespace ComputePlane.Lifecycle

open Program

def datacenterIds : Operation (List String) := do
  return (← call .listDatacenters).map (·.id)

def listNodes (s : AdapterSettings) : Operation (List Node) := do
  let ids ← datacenterIds
  return (← gather .servers s.userThreads ids).flatten

def listNodesByIds (s : AdapterSettings) (texts : List String) : Operation (List Node) :=
  gather .nodes s.userThreads texts

/-- All datacenters as locations. One that vanishes while they are listed is left out. -/
def listLocations (s : AdapterSettings) : Operation (List Location) := do
  let ids ← datacenterIds
  return (← gather .locations s.userThreads ids).reduceOption.map Datacenter.toLocation

/-- The images on hard disks, then the snapshots. -/
def listImages : Operation (List BootSource) := do
  let (images, snapshots) ← fetch
  return (images.filter (·.properties.type = some .hdd)).map .image ++ snapshots.map .snapshot

/-- The image of an id, or else the snapshot of it. -/
def getImage (id : String) : Operation BootSource := do
  match ← call (.getImage id) with
  | some i => return .image i
  | none =>
    match ← call (.getSnapshot id) with
    | some s => return .snapshot s
    | none => throw (.notFound "image" id)

end ComputePlane.Lifecycle
