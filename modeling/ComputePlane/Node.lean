import ComputePlane.Hardware
import ComputePlane.IpAddress
import ComputePlane.NodeId
import ComputePlane.OsFamily
import ComputePlane.Resource.Basic
import ComputePlane.Resource.Request

/-!
# Nodes

A node is a server seen with the datacenter it is in. Its description names the hardware by the sum
of the sizes of its volumes, sorts its addresses by their range and reads its group off its name.
-/

namespace ComputePlane

open Number

/-- A server with the datacenter it is in. -/
structure Node where
  server : Server
  datacenter : String
  deriving DecidableEq, Repr

namespace Node

def id (n : Node) : NodeId := ⟨n.datacenter, n.server.id⟩

def state (n : Node) : Option State := n.server.state

def vmState (n : Node) : Option VmState := n.server.properties.vmState

end Node

/-! ## Status -/

/-- What can be done with a node. -/
inductive NodeStatus where
  | running
  | suspended
  | pending
  | error
  | unrecognized
  deriving DecidableEq, Repr

namespace NodeStatus

def name : NodeStatus → String
  | running => "RUNNING"
  | suspended => "SUSPENDED"
  | pending => "PENDING"
  | error => "ERROR"
  | unrecognized => "UNRECOGNIZED"

/-- The status that a power state tells. -/
def ofVmState : Option VmState → NodeStatus
  | some .running => running
  | some .shutoff => suspended
  | some .shutdown => suspended
  | some .paused => suspended
  | some .blocked => pending
  | some .crashed => error
  | some .unrecognized => unrecognized
  | none => unrecognized

end NodeStatus

/-! ## Description -/

/-- The group in a node's name: what stands before the last hyphen. -/
def groupOf? (name : String) : Option String :=
  (Text.beforeLast '-' name).filter (· ≠ "")

def isPrivateAddress (ip : String) : Bool :=
  (IpAddress.parse? ip).elim false (·.isPrivate)

structure NodeDescription where
  id : String
  name : Option String
  group : Option String
  locationId : String
  backendStatus : Option String
  status : NodeStatus
  hardwareId : String
  cores : Nat
  ramMb : Nat
  volumeIds : List String
  osFamily : OsFamily
  privateAddresses : List String
  publicAddresses : List String
  deriving DecidableEq, Repr

namespace Node

/-- The sizes of the volumes, added in their order. -/
def disk (n : Node) : Single :=
  Binary.sum .single (n.server.volumes.filterMap (·.properties.size))

def addresses (n : Node) : List String :=
  n.server.nics.flatMap (·.properties.ips)

def describe (n : Node) : NodeDescription :=
  let p := n.server.properties
  let cores := p.cores.getD 0
  let ram := p.ram.getD 0
  { id := n.id.text
    name := p.name
    group := p.name.bind groupOf?
    locationId := n.datacenter
    backendStatus := n.state.map State.name
    status := .ofVmState p.vmState
    hardwareId := Hardware.idOf cores ram (n.disk.toBoundedNat (twoTo 32 - 1))
    cores := cores
    ramMb := ram
    volumeIds := n.server.volumes.map (·.id)
    osFamily := .ofLicence (p.bootVolume.bind (·.properties.licence))
    privateAddresses := n.addresses.filter isPrivateAddress
    publicAddresses := n.addresses.filter (!isPrivateAddress ·) }

end Node

namespace Json

def textOrNull : Option String → Json
  | some s => .text s
  | none => .null

end Json

open Json

def NodeDescription.toJson (d : NodeDescription) : Json :=
  record
    [("id", .text d.id), ("name", textOrNull d.name), ("group", textOrNull d.group),
      ("location_id", .text d.locationId), ("backend_status", textOrNull d.backendStatus),
      ("status", .text d.status.name), ("hardware_id", .text d.hardwareId),
      ("cores", ofNat d.cores), ("ram_mb", ofNat d.ramMb), ("volume_ids", texts d.volumeIds),
      ("os_family", .text d.osFamily.name), ("private_addresses", texts d.privateAddresses),
      ("public_addresses", texts d.publicAddresses)]

end ComputePlane
