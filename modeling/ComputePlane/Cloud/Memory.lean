import ComputePlane.Cloud.Call

/-!
# A cloud in memory

The resources of a cloud and what each call does with them. New ids come from one counter, so none
is issued twice. A call can be made to fail by its number, and deletes of servers to have no effect.

A change runs in two parts, `begin` and `finish`, between which other calls can come; a change that
begins while another one of the same datacenter is going on is counted as an overlap.
-/

namespace ComputePlane

open Number

/-! ## What is stored -/

structure StoredVolume where
  datacenter : String
  id : String
  name : String
  size : Single
  state : State
  licence : Option LicenceType
  deriving DecidableEq, Repr

/-- A stored network interface. Its rules are ranges of ports. -/
structure StoredNic where
  id : String
  ips : List String
  lan : Nat
  firewallActive : Bool
  rules : List (Nat × Nat)
  deriving DecidableEq, Repr

/-- A stored server. Its volumes are named by their ids. -/
structure StoredServer where
  id : NodeId
  name : String
  cores : Nat
  ram : Nat
  state : State
  vmState : VmState
  volumes : List String
  nics : List StoredNic
  deriving DecidableEq, Repr

/-- A cloud: its resources in the order in which they were made, how often each call was made,
which calls fail, and the datacenters with a change that is going on. -/
structure MemoryCloud where
  issued : Nat := 0
  datacenters : List (String × String) := []
  volumes : List StoredVolume := []
  servers : List StoredServer := []
  ipBlocks : List (String × List String) := []
  images : List Image := []
  snapshots : List Snapshot := []
  counts : List (String × Nat) := []
  failures : List (String × Nat) := []
  ignoreServerDeletes : Bool := false
  busyAfterAttach : Bool := false
  inFlight : List String := []
  overlaps : Nat := 0
  deriving Repr

namespace MemoryCloud

/-! ## Looking up -/

/-- Items in the order of their keys. -/
def sortedBy {α : Type} (key : α → String) (xs : List α) : List α :=
  xs.mergeSort fun a b => key a ≤ key b

/-- A stored volume as it is told. -/
def tellVolume (v : StoredVolume) : Volume :=
  ⟨v.id, some { state := some v.state },
    { name := some v.name, size := some v.size, licence := v.licence }⟩

def volume? (c : MemoryCloud) (dc id : String) : Option Volume :=
  (c.volumes.find? fun v => v.datacenter = dc ∧ v.id = id).map tellVolume

/-- A stored network interface as it is told, in a state. -/
def tellNic (state : State) (n : StoredNic) : Nic :=
  ⟨n.id, some { state := some state },
    { ips := n.ips, lan := some n.lan, firewallActive := some n.firewallActive }⟩

/-- The stored server of an id. -/
def stored? (c : MemoryCloud) (id : NodeId) : Option StoredServer :=
  c.servers.find? (·.id = id)

/-- A stored server as it is told: with those of its volumes that are in its datacenter, the first
of them as the one it starts from. -/
def tellServer (c : MemoryCloud) (s : StoredServer) : Server :=
  let volumes := s.volumes.filterMap (c.volume? s.id.datacenter)
  { id := s.id.server
    metadata := some { state := some s.state }
    properties :=
      { name := some s.name, cores := some s.cores, ram := some s.ram, vmState := some s.vmState,
        bootVolume := volumes.head? }
    attachments := some ⟨some volumes, some (s.nics.map (tellNic .available))⟩ }

/-- The server of an id. -/
def server? (c : MemoryCloud) (id : NodeId) : Option Server :=
  (c.stored? id).map c.tellServer

/-- The ids of a datacenter's volumes in their order. -/
def volumeIds (c : MemoryCloud) (dc : String) : List String :=
  sortedBy (·) ((c.volumes.filter (·.datacenter = dc)).map (·.id))

/-- The servers of a datacenter in the order of their ids. -/
def serversOf (c : MemoryCloud) (dc : String) : List Server :=
  (sortedBy (·.id.server) (c.servers.filter (·.id.datacenter = dc))).map c.tellServer

/-- The ranges of ports that the rules of a server open. -/
def firewallRules (c : MemoryCloud) (id : NodeId) : List (Nat × Nat) :=
  ((c.stored? id).map fun s => s.nics.flatMap (·.rules)).getD []

/-! ## Changing -/

/-- A new id, and the cloud that has issued it. -/
def issue (c : MemoryCloud) (kind : String) : String × MemoryCloud :=
  (kind ++ "-" ++ decimal (c.issued + 1), { c with issued := c.issued + 1 })

def updateServer (c : MemoryCloud) (id : NodeId) (f : StoredServer → StoredServer) : MemoryCloud :=
  { c with servers := c.servers.map fun s => if s.id = id then f s else s }

def updateVolume (c : MemoryCloud) (dc id : String) (f : StoredVolume → StoredVolume) :
    MemoryCloud :=
  { c with volumes := c.volumes.map fun v => if v.datacenter = dc ∧ v.id = id then f v else v }

/-- The failure of a change of a server that is not there. -/
def noServer (id : NodeId) : Error := .backend ("no server " ++ id.text)

/-- Changes a server that has to be there. -/
def changeServer (c : MemoryCloud) (id : NodeId) (f : StoredServer → StoredServer) :
    Except Error Unit × MemoryCloud :=
  if (c.stored? id).isSome then (.ok (), c.updateServer id f) else (.error (noServer id), c)

def createVolume (c : MemoryCloud) (dc : String) (r : VolumeRequest) : Volume × MemoryCloud :=
  let (id, c) := c.issue "vol"
  let v : StoredVolume := ⟨dc, id, r.name, r.size, .available, r.image.map fun _ => .linux⟩
  (tellVolume v, { c with volumes := c.volumes ++ [v] })

/-- Forgets a volume and takes its id off every server. -/
def deleteVolume (c : MemoryCloud) (v : VolumeRef) : MemoryCloud :=
  { c with
    volumes := c.volumes.filter fun w => ¬(w.datacenter = v.datacenter ∧ w.id = v.volume)
    servers := c.servers.map fun s => { s with volumes := s.volumes.filter (· ≠ v.volume) } }

/-- Makes a running server. -/
def createServer (c : MemoryCloud) (dc : String) (r : ServerRequest) : Server × MemoryCloud :=
  let (id, c) := c.issue "srv"
  let s : StoredServer :=
    ⟨⟨dc, id⟩, r.name, r.cores, r.ram, .available, .running, r.bootVolume.toList, []⟩
  let c := { c with servers := c.servers ++ [s] }
  (c.tellServer s, c)

/-- Forgets a server, unless deletes are ignored. -/
def deleteServer (c : MemoryCloud) (id : NodeId) : MemoryCloud :=
  if c.ignoreServerDeletes then c else { c with servers := c.servers.filter (·.id ≠ id) }

/-- Attaches a volume, whether it is there or not. -/
def attachVolume (c : MemoryCloud) (id : NodeId) (volume : String) :
    Except Error Unit × MemoryCloud :=
  c.changeServer id fun s =>
    { s with
      volumes := s.volumes ++ [volume]
      state := if c.busyAfterAttach then .busy else s.state }

/-- Makes a network interface. Its id is issued also if the server is not there. -/
def createNic (c : MemoryCloud) (id : NodeId) (r : NicRequest) : Except Error Nic × MemoryCloud :=
  let (nic, c) := c.issue "nic"
  let n : StoredNic := ⟨nic, r.ips, r.lan, r.firewallActive, []⟩
  let (done, c) := c.changeServer id fun s => { s with nics := s.nics ++ [n] }
  (done.map fun _ => tellNic .busy n, c)

def createIpBlock (c : MemoryCloud) (r : IpBlockRequest) : IpBlock × MemoryCloud :=
  let (id, c) := c.issue "ipb"
  let ips := (List.range r.size).map fun i => "203.0.113." ++ decimal ((c.issued + i) % 250 + 1)
  (⟨id, some { state := some .available },
      { name := some r.name, location := some r.location, size := some r.size, ips := ips }⟩,
    { c with ipBlocks := c.ipBlocks ++ [(id, ips)] })

def deleteIpBlock (c : MemoryCloud) (id : String) : MemoryCloud :=
  { c with ipBlocks := c.ipBlocks.filter (·.1 ≠ id) }

/-- Makes a rule. Its id is issued also if the server or the network interface is not there. -/
def createFirewallRule (c : MemoryCloud) (n : NicRef) (r : FirewallRuleRequest) :
    Except Error FirewallRule × MemoryCloud :=
  let (id, c) := c.issue "fw"
  match c.stored? n.server with
  | none => (.error (noServer n.server), c)
  | some s =>
    if (s.nics.find? (·.id = n.nic)).isNone then (.error (.backend ("no nic " ++ n.nic)), c)
    else
      let add (m : StoredNic) : StoredNic :=
        if m.id = n.nic then { m with rules := m.rules ++ [(r.portRangeStart, r.portRangeEnd)] }
        else m
      (.ok ⟨id, none,
          { name := some r.name, protocol := some r.protocol,
            portRangeStart := some r.portRangeStart, portRangeEnd := some r.portRangeEnd }⟩,
        c.updateServer n.server fun s => { s with nics := s.nics.map add })

/-! ## Calls -/

/-- The effect of a call that does not fail by its number. -/
def apply (c : MemoryCloud) : (call : Call) → call.Result × MemoryCloud
  | .listDatacenters =>
    (.ok ((sortedBy (·.1) c.datacenters).map fun d => ⟨d.1, none, {}⟩), c)
  | .getDatacenter dc =>
    (.ok ((c.datacenters.lookup dc).map fun region =>
      ⟨dc, some { state := some .available },
        { name := some (dc ++ " name"), location := some region }⟩), c)
  | .createVolume dc r => let (v, c) := c.createVolume dc r; (.ok v, c)
  | .getVolume v => (.ok (c.volume? v.datacenter v.volume), c)
  | .deleteVolume v => (.ok (), c.deleteVolume v)
  | .createServer dc r => let (s, c) := c.createServer dc r; (.ok s, c)
  | .getServer s => (.ok (c.server? s), c)
  | .listServers dc => (.ok (c.serversOf dc), c)
  | .deleteServer s => (.ok (), c.deleteServer s)
  | .attachVolume s v => c.attachVolume s v
  | .rebootServer s => c.changeServer s fun s => { s with vmState := .running }
  | .startServer s => c.changeServer s fun s => { s with vmState := .running }
  | .stopServer s => c.changeServer s fun s => { s with vmState := .shutoff }
  | .createNic s r => c.createNic s r
  | .getNic n =>
    (.ok ((c.server? n.server).bind fun s => s.nics.find? (·.id = n.nic)), c)
  | .createIpBlock r => let (b, c) := c.createIpBlock r; (.ok b, c)
  | .deleteIpBlock b => (.ok (), c.deleteIpBlock b)
  | .createFirewallRule n r => c.createFirewallRule n r
  | .listImages => (.ok c.images, c)
  | .getImage id => (.ok (c.images.find? (·.id = id)), c)
  | .listSnapshots => (.ok c.snapshots, c)
  | .getSnapshot id => (.ok (c.snapshots.find? (·.id = id)), c)

/-- How often a call was made. -/
def count (c : MemoryCloud) (name : String) : Nat :=
  (c.counts.lookup name).getD 0

/-- Numbers with the one of a name increased. -/
def bump (name : String) : List (String × Nat) → List (String × Nat)
  | [] => [(name, 1)]
  | (k, n) :: rest => if k = name then (k, n + 1) :: rest else (k, n) :: bump name rest

/-- Counts a call, and tells its failure if it is to fail. -/
def record (c : MemoryCloud) (name : String) : Option Error × MemoryCloud :=
  let c := { c with counts := bump name c.counts }
  let n := c.count name
  (if c.failures.contains (name, n) then
      some (.backend ("injected failure: " ++ name ++ " #" ++ decimal n))
    else none,
    c)

/-- The first part of a call: it is counted, and a change of a datacenter is going on from now. -/
def begin (c : MemoryCloud) (call : Call) : Option Error × MemoryCloud :=
  let (failure, c) := c.record call.name
  match call.changes? with
  | none => (failure, c)
  | some dc =>
    (failure,
      { c with
        inFlight := dc :: c.inFlight
        overlaps := if c.inFlight.contains dc then c.overlaps + 1 else c.overlaps })

/-- The second part of a call: its failure, or its effect. -/
def finish (c : MemoryCloud) (call : Call) (failure : Option Error) : call.Result × MemoryCloud :=
  let c :=
    match call.changes? with
    | none => c
    | some dc => { c with inFlight := c.inFlight.erase dc }
  match failure with
  | some e => (.error e, c)
  | none => c.apply call

/-- A call that nothing comes between. -/
def call (c : MemoryCloud) (call : Call) : call.Result × MemoryCloud :=
  let (failure, c) := c.begin call
  c.finish call failure

/-! ## Setting up -/

def addDatacenter (c : MemoryCloud) (region : String) : String × MemoryCloud :=
  let (id, c) := c.issue "dc"
  (id, { c with datacenters := c.datacenters ++ [(id, region)] })

/-- Adds a volume that is named by its id. -/
def addVolume (c : MemoryCloud) (dc : String) (size : Single) (state : State) :
    String × MemoryCloud :=
  let (id, c) := c.issue "vol"
  (id, { c with volumes := c.volumes ++ [⟨dc, id, id, size, state, none⟩] })

/-- Adds a server with one core. -/
def addServer (c : MemoryCloud) (dc name : String) (vmState : VmState) (volumes : List String) :
    String × MemoryCloud :=
  let (id, c) := c.issue "srv"
  (id, { c with
    servers := c.servers ++ [⟨⟨dc, id⟩, name, 1, 1024, .available, vmState, volumes, []⟩] })

def addImage (c : MemoryCloud) (name : String) (type : ImageType) : String × MemoryCloud :=
  let (id, c) := c.issue "img"
  (id, { c with
    images := c.images ++ [⟨id, some { state := some .available },
      { name := some name, type := some type, licence := some .linux }⟩] })

def addSnapshot (c : MemoryCloud) (name : String) (state : State) : String × MemoryCloud :=
  let (id, c) := c.issue "snap"
  (id, { c with
    snapshots := c.snapshots ++ [⟨id, some { state := some state }, { name := some name }⟩] })

end MemoryCloud

end ComputePlane
