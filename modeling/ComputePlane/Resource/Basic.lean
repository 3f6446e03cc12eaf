import ComputePlane.Number.Binary
import ComputePlane.Resource.State
import ComputePlane.Timestamp

/-!
# Resources of the cloud

What the cloud tells of datacenters, volumes, servers, network interfaces, address blocks, firewall
rules, images and snapshots. A property the cloud does not tell is absent.
-/

namespace ComputePlane

open Number

/-! ## Common parts -/

/-- What is kept about every resource. -/
structure Metadata where
  created : Option Timestamp := none
  modified : Option Timestamp := none
  etag : Option String := none
  state : Option State := none
  deriving DecidableEq, Repr

/-- A resource: its id, its metadata and the properties of its kind. -/
structure Resource (Properties : Type) where
  id : String
  metadata : Option Metadata
  properties : Properties
  deriving DecidableEq, Repr

def Resource.state {α : Type} (r : Resource α) : Option State :=
  r.metadata.bind (·.state)

/-! ## Kinds of resources -/

structure DatacenterProperties where
  name : Option String := none
  location : Option String := none
  description : Option String := none
  version : Option Int := none
  deriving DecidableEq, Repr

abbrev Datacenter := Resource DatacenterProperties

structure VolumeProperties where
  name : Option String := none
  size : Option Single := none
  type : Option VolumeType := none
  image : Option String := none
  licence : Option LicenceType := none
  bus : Option String := none
  deviceNumber : Option Int := none
  deriving DecidableEq, Repr

abbrev Volume := Resource VolumeProperties

structure NicProperties where
  name : Option String := none
  mac : Option String := none
  ips : List String := []
  dhcp : Option Bool := none
  lan : Option Nat := none
  firewallActive : Option Bool := none
  deriving DecidableEq, Repr

abbrev Nic := Resource NicProperties

structure ServerProperties where
  name : Option String := none
  cores : Option Nat := none
  ram : Option Nat := none
  availabilityZone : Option String := none
  vmState : Option VmState := none
  bootVolume : Option Volume := none
  deriving DecidableEq, Repr

structure Attachments where
  volumes : Option (List Volume) := none
  nics : Option (List Nic) := none
  deriving DecidableEq, Repr

structure Server extends Resource ServerProperties where
  attachments : Option Attachments
  deriving DecidableEq, Repr

namespace Server

def volumes (s : Server) : List Volume :=
  (s.attachments.bind (·.volumes)).getD []

def nics (s : Server) : List Nic :=
  (s.attachments.bind (·.nics)).getD []

end Server

structure IpBlockProperties where
  name : Option String := none
  location : Option String := none
  size : Option Nat := none
  ips : List String := []
  deriving DecidableEq, Repr

abbrev IpBlock := Resource IpBlockProperties

structure FirewallRuleProperties where
  name : Option String := none
  protocol : Option String := none
  sourceIp : Option String := none
  portRangeStart : Option Nat := none
  portRangeEnd : Option Nat := none
  deriving DecidableEq, Repr

/-- A rule that opens ports of a network interface. -/
abbrev FirewallRule := Resource FirewallRuleProperties

structure ImageProperties where
  name : Option String := none
  description : Option String := none
  location : Option String := none
  size : Option Single := none
  licence : Option LicenceType := none
  type : Option ImageType := none
  isPublic : Option Bool := none
  deriving DecidableEq, Repr

/-- An image that volumes are made from. -/
abbrev Image := Resource ImageProperties

structure SnapshotProperties where
  name : Option String := none
  description : Option String := none
  location : Option String := none
  size : Option Single := none
  licence : Option LicenceType := none
  deriving DecidableEq, Repr

/-- A snapshot of a volume. -/
abbrev Snapshot := Resource SnapshotProperties

end ComputePlane
