import ComputePlane.Lifecycle.Basic
import ComputePlane.Password

/-!
# Creating nodes

A node is made of volumes, a server that starts from the first of them, a block of addresses and a
network interface with firewall rules; at the end it is restarted once. Without the first volume,
the server, the addresses or the network interface there is no node: if one of these fails, what was
made before is deleted. Further volumes, their attachments, firewall rules and the restart may fail;
what failed is reported beside the node.
-/

namespace ComputePlane.Lifecycle

open Program Number

/-! ## Templates and results -/

/-- What a new node is to be. Without a region its datacenter's is looked up. -/
structure Template where
  datacenter : String
  region : Option String := none
  image : String
  hardware : Hardware
  user : Option String := none
  password : Option String := none
  privateKey : Option String := none
  networks : List String := []
  inboundPorts : List Nat := []
  deriving DecidableEq, Repr

/-- How to log in to a node. -/
structure Credentials where
  user : String
  password : String
  privateKey : Option String
  deriving DecidableEq, Repr

/-- A step that failed and was passed over. -/
structure Skipped where
  stage : Stage
  resource : Option String
  reason : String
  deriving DecidableEq, Repr

def Credentials.toJson (c : Credentials) : Json :=
  .record ([("user", .text c.user), ("password", .text c.password)] ++
    Json.member? "private_key" .text c.privateKey)

def Skipped.toJson (k : Skipped) : Json :=
  .record [("stage", .text k.stage.name), ("resource_id", Json.textOrNull k.resource),
    ("reason", .text k.reason)]

/-- A new node. -/
structure Created where
  node : Node
  id : String
  credentials : Credentials
  skipped : List Skipped
  deriving DecidableEq, Repr

/-! ## Choices -/

/-- The user that is logged in as unless the template says otherwise. -/
def defaultUser : String := "root"

/-- The credentials of a new node: those of the template, a password drawn where it has none. -/
def Template.credentials (t : Template) (draws : Draws) : Credentials where
  user := (t.user.filter (· ≠ "")).getD defaultUser
  password := (t.password.filter (· ≠ "")).getD (Password.generate draws)
  privateKey := t.privateKey

/-- The network of a new node: the first one named, if it is a number. -/
def lanOf (s : AdapterSettings) (networks : List String) : Nat :=
  (networks.head?.bind fun n => word32? (Text.trim n)).getD s.defaultLan

/-- Ports in order, each once, as ranges of neighbours. -/
def collapse : List Nat → List (Nat × Nat)
  | [] => []
  | p :: ps =>
    match collapse ps with
    | [] => [(p, p)]
    | (first, last) :: rest =>
      if p + 1 = first then (p, last) :: rest else (p, p) :: (first, last) :: rest

def portRanges (ports : List Nat) : List (Nat × Nat) :=
  collapse (ports.mergeSort (· ≤ ·)).eraseReps

/-! ## Steps that may fail -/

/-- A change that is passed over if it fails. -/
def attempt (stage : Stage) (resource : Option String) (dc : String) (c : Call) :
    Program (Except Skipped c.Answer) := do
  match ← (submit dc c).run with
  | .ok a => return .ok a
  | .error e => return .error ⟨stage, resource, e.message⟩

/-- The `i`-th volume of a node, counted from one. Only the first carries the image. -/
def volumeRequest (s : AdapterSettings) (t : Template) (name password : String) (i size : Nat) :
    VolumeRequest where
  name := name ++ "-disk-" ++ decimal i
  size := singleOfNat size
  type := s.volumeType
  image := if i = 1 then some t.image else none
  imagePassword := if i = 1 then some password else none

/-- The server of a node, which starts from the volume `boot`. -/
def serverRequest (t : Template) (name boot : String) : ServerRequest where
  name := name
  cores := t.hardware.cores
  ram := t.hardware.ramMb
  bootVolume := some boot

/-- The block of one address that a node is reached at. -/
def ipBlockRequest (name region : String) : IpBlockRequest := ⟨name ++ " block", region, 1⟩

/-- The network interface of a node. Its firewall is on if there are ports to open. -/
def nicRequest (s : AdapterSettings) (t : Template) (name : String) (ips : List String) :
    NicRequest where
  name := some (name ++ " nic")
  ips := ips
  dhcp := true
  lan := lanOf s t.networks
  firewallActive := !(portRanges t.inboundPorts).isEmpty

/-- Makes volumes from the `i`-th on: their ids, and what was passed over. -/
def createVolumes (dc : String) (request : Nat → Nat → VolumeRequest) :
    Nat → List Nat → Program (List String × List Skipped)
  | _, [] => return ([], [])
  | i, size :: sizes => do
    let made ← attempt .provisionVolume none dc (.createVolume dc (request i size))
    let (ids, skipped) ← createVolumes dc request (i + 1) sizes
    match made with
    | .ok v => return (v.id :: ids, skipped)
    | .error k => return (ids, k :: skipped)

/-- The rule that opens a range of ports. -/
def ruleRequest (name : String) (range : Nat × Nat) : FirewallRuleRequest where
  name := name ++ " tcp " ++ decimal range.1 ++ "-" ++ decimal range.2
  protocol := "TCP"
  portRangeStart := range.1
  portRangeEnd := range.2

/-- Opens ranges of ports: what was passed over. -/
def createRules (nic : NicRef) (name : String) : List (Nat × Nat) → Program (List Skipped)
  | [] => return []
  | range :: ranges => do
    let made ← attempt .createFirewallRule (some nic.nic) nic.server.datacenter
      (.createFirewallRule nic (ruleRequest name range))
    let skipped ← createRules nic name ranges
    match made with
    | .ok _ => return skipped
    | .error k => return k :: skipped

/-- Attaches volumes; one that cannot be attached is deleted. What was passed over. -/
def attachVolumes (server : NodeId) : List String → Program (List Skipped)
  | [] => return []
  | volume :: volumes => do
    let dc := server.datacenter
    match ← attempt .attachVolume (some volume) dc (.attachVolume server volume) with
    | .ok _ => attachVolumes server volumes
    | .error k =>
      bestEffort dc (.deleteVolume ⟨dc, volume⟩)
      let skipped ← attachVolumes server volumes
      return k :: skipped

/-- Restarts the server: what was passed over. -/
def restart (server : NodeId) : Program (List Skipped) := do
  match ← attempt .reboot (some server.server) server.datacenter (.rebootServer server) with
  | .ok _ => return []
  | .error k => return [k]

/-! ## Steps that may not fail -/

/-- What has been made for a node so far. -/
structure Made where
  server : Option String := none
  volumes : List String := []
  ipBlock : Option String := none
  deriving DecidableEq, Repr

/-- The deletes that undo what has been made: the server, its volumes, its addresses. -/
def Made.deletes (dc : String) (m : Made) : List Call :=
  m.server.toList.map (fun id => .deleteServer ⟨dc, id⟩) ++
    m.volumes.map (fun id => .deleteVolume ⟨dc, id⟩) ++
    m.ipBlock.toList.map .deleteIpBlock

/-- A change without which there is no node: if it fails, what has been made is deleted. -/
def critical (stage : Stage) (dc : String) (made : Made) (c : Call) : Operation c.Answer :=
  tryCatch (submit dc c) fun e => do
    bestEffortAll dc (made.deletes dc)
    throw (.fatal stage e)

def regionOf (t : Template) : Operation String := do
  match t.region with
  | some region => return region
  | none =>
    match (← call (.getDatacenter t.datacenter)).bind (·.properties.location) with
    | some region => return region
    | none => throw (.notFound "datacenter" t.datacenter)

/-! ## The whole -/

/-- The network part of a node: its addresses, its network interface and the rules of that. -/
def createNetwork (s : AdapterSettings) (t : Template) (name region : String) (server : NodeId)
    (volumes : List String) : Operation (List Skipped) := do
  let dc := t.datacenter
  let made : Made := { server := some server.server, volumes := volumes }
  let block ← critical .allocateIpBlock dc made (.createIpBlock (ipBlockRequest name region))
  let nic ← critical .provisionNic dc { made with ipBlock := some block.id }
    (.createNic server (nicRequest s t name block.properties.ips))
  let _ ← awaitAvailable s (.nic ⟨server, nic.id⟩)
  createRules ⟨server, nic.id⟩ name (portRanges t.inboundPorts)

/-- The end of a creation: the further volumes are attached and the server is restarted, for only
then do changes of volumes and networks take effect. -/
def settle (s : AdapterSettings) (server : NodeId) (extra : List String) :
    Program (List Skipped) := do
  let notAttached ← attachVolumes server extra
  let _ ← awaitAvailable s (.datacenter server.datacenter)
  let _ ← awaitAvailable s (.server server)
  pause s.preRebootPause
  let notRestarted ← restart server
  let _ ← awaitAvailable s (.server server)
  pause s.postRebootPause
  return notAttached ++ notRestarted

/-- Creates a node in a region. Its volumes have the sizes `bootSize` and `sizes`. -/
def createIn (s : AdapterSettings) (name : String) (t : Template) (draws : Draws) (bootSize : Nat)
    (sizes : List Nat) (region : String) : Operation Created := do
  let dc := t.datacenter
  let credentials := t.credentials draws
  let request := volumeRequest s t name credentials.password
  let boot ← critical .provisionBootVolume dc {} (.createVolume dc (request 1 bootSize))
  let (extra, notMade) ← createVolumes dc request 2 sizes
  let _ ← awaitAvailable s (.volume ⟨dc, boot.id⟩)
  let made ← critical .provisionServer dc { volumes := boot.id :: extra }
    (.createServer dc (serverRequest t name boot.id))
  let server : NodeId := ⟨dc, made.id⟩
  let _ ← awaitAvailable s (.server server)
  let _ ← awaitAvailable s (.datacenter dc)
  let notOpened ← createNetwork s t name region server (boot.id :: extra)
  let notSettled ← settle s server extra
  let node ← getNode server.text
  return ⟨node, server.text, credentials, notMade ++ notOpened ++ notSettled⟩

def create (s : AdapterSettings) (name : String) (t : Template) (draws : Draws) :
    Operation Created := do
  match t.hardware.volumesGb with
  | [] => throw (.invalidId ("hardware " ++ t.hardware.id ++ " has no volumes"))
  | bootSize :: sizes => createIn s name t draws bootSize sizes (← regionOf t)

end ComputePlane.Lifecycle
