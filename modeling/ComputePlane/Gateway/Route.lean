import ComputePlane.Gateway.Uri

/-!
# Routes

The paths that the gateway knows, and what the methods on them ask for. A path is matched before
percent signs are read, so a slash that is written with one belongs to a segment. The last segment
of a path is not empty; one in the middle may be.
-/

namespace ComputePlane.Gateway

/-! ## Paths -/

/-- What is done with a node's power. -/
inductive PowerChange where
  | reboot
  | resume
  | suspend
  deriving DecidableEq, Repr

/-- A path. Segments are kept as they are written. -/
inductive Route where
  | locations
  | hardware
  | images
  | image (id : String)
  | nodes
  | node (datacenter server : String)
  | power (change : PowerChange) (datacenter server : String)
  deriving DecidableEq, Repr

/-- The power change of a path's last word. -/
def PowerChange.ofWord? : String → Option PowerChange
  | "reboot" => some .reboot
  | "resume" => some .resume
  | "suspend" => some .suspend
  | _ => none

def Route.ofSegments? : List String → Option Route
  | ["locations"] => some .locations
  | ["hardware"] => some .hardware
  | ["images"] => some .images
  | ["images", id] => if id = "" then none else some (.image id)
  | ["nodes"] => some .nodes
  | ["nodes", dc, id] => if id = "" then none else some (.node dc id)
  | ["nodes", dc, id, word] => (PowerChange.ofWord? word).map (.power · dc id)
  | _ => none

def Route.ofPath? (path : String) : Option Route :=
  (segments? path).bind ofSegments?

/-! ## Actions -/

/-- What a request asks for. Segments are kept as they are written. -/
inductive Action where
  | listLocations
  | listHardware
  | listImages
  | getImage (id : String)
  | listNodes
  | createNode
  | getNode (datacenter server : String)
  | destroyNode (datacenter server : String)
  | changePower (change : PowerChange) (datacenter server : String)
  deriving DecidableEq, Repr

/-- What a method on a route asks for. -/
def Route.action? : Route → String → Option Action
  | .locations, "GET" => some .listLocations
  | .hardware, "GET" => some .listHardware
  | .images, "GET" => some .listImages
  | .image id, "GET" => some (.getImage id)
  | .nodes, "GET" => some .listNodes
  | .nodes, "POST" => some .createNode
  | .node dc id, "GET" => some (.getNode dc id)
  | .node dc id, "DELETE" => some (.destroyNode dc id)
  | .power change dc id, "POST" => some (.changePower change dc id)
  | _, _ => none

end ComputePlane.Gateway
