import ComputePlane.Json.Printer
import ComputePlane.Resource.Basic

/-!
# Requests for new resources

The properties asked for, and the bodies that carry them. A property that is left open is not
written.
-/

namespace ComputePlane

open Number

/-! ## Members of bodies -/

namespace Json

def ofNat (n : Nat) : Json := .number (.ofNat n)

/-- A 32-bit number; infinity and the undefined value are `null`. -/
def ofSingle (x : Single) : Json :=
  match Numeral.ofSingle? x with
  | some n => .number n
  | none => .null

def texts (ss : List String) : Json := .array (ss.map .text)

/-- A member, unless its value is absent. -/
def member? {α : Type} (name : String) (f : α → Json) : Option α → List (String × Json)
  | some a => [(name, f a)]
  | none => []

end Json

open Json

/-! ## Requests -/

structure VolumeRequest where
  name : String
  size : Single
  type : VolumeType
  image : Option String := none
  imagePassword : Option String := none
  licence : Option LicenceType := none
  sshKeys : Option (List String) := none
  deriving DecidableEq, Repr

def VolumeRequest.properties (r : VolumeRequest) : Json :=
  record ([("name", .text r.name), ("size", ofSingle r.size), ("type", .text r.type.name)] ++
    member? "image" .text r.image ++ member? "imagePassword" .text r.imagePassword ++
    member? "licenceType" (fun l => .text l.name) r.licence ++ member? "sshKeys" texts r.sshKeys)

/-- What a new server is to be. The boot volume is named by its id. -/
structure ServerRequest where
  name : String
  cores : Nat
  ram : Nat
  bootVolume : Option String := none
  availabilityZone : Option String := none
  deriving DecidableEq, Repr

def ServerRequest.properties (r : ServerRequest) : Json :=
  record ([("name", .text r.name), ("cores", ofNat r.cores), ("ram", ofNat r.ram)] ++
    member? "bootVolume" (fun id => record [("id", .text id)]) r.bootVolume ++
    member? "availabilityZone" .text r.availabilityZone)

structure NicRequest where
  name : Option String := none
  ips : List String
  dhcp : Bool
  lan : Nat
  firewallActive : Bool
  deriving DecidableEq, Repr

def NicRequest.properties (r : NicRequest) : Json :=
  record (member? "name" .text r.name ++ [("ips", texts r.ips), ("dhcp", .bool r.dhcp),
    ("lan", ofNat r.lan), ("firewallActive", .bool r.firewallActive)])

structure IpBlockRequest where
  name : String
  location : String
  size : Nat
  deriving DecidableEq, Repr

def IpBlockRequest.properties (r : IpBlockRequest) : Json :=
  record [("name", .text r.name), ("location", .text r.location), ("size", ofNat r.size)]

structure FirewallRuleRequest where
  name : String
  protocol : String
  sourceIp : Option String := none
  portRangeStart : Nat
  portRangeEnd : Nat
  deriving DecidableEq, Repr

def FirewallRuleRequest.properties (r : FirewallRuleRequest) : Json :=
  record ([("name", .text r.name), ("protocol", .text r.protocol)] ++
    member? "sourceIp" .text r.sourceIp ++
    [("portRangeStart", ofNat r.portRangeStart), ("portRangeEnd", ofNat r.portRangeEnd)])

def requestBody (properties : Json) : Json :=
  record [("properties", properties)]

end ComputePlane
