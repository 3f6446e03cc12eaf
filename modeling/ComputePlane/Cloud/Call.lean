import ComputePlane.NodeId
import ComputePlane.Resource.Decoder
import ComputePlane.Resource.Request

/-!
# Calls of the cloud

Everything that is asked of the cloud, with the type of its answer. Looking up what is absent is no
failure: the answer is `none`.
-/

namespace ComputePlane

inductive Call where
  | listDatacenters
  | getDatacenter (dc : String)
  | createVolume (dc : String) (request : VolumeRequest)
  | getVolume (volume : VolumeRef)
  | deleteVolume (volume : VolumeRef)
  | createServer (dc : String) (request : ServerRequest)
  | getServer (server : NodeId)
  | listServers (dc : String)
  | deleteServer (server : NodeId)
  | attachVolume (server : NodeId) (volume : String)
  | rebootServer (server : NodeId)
  | startServer (server : NodeId)
  | stopServer (server : NodeId)
  | createNic (server : NodeId) (request : NicRequest)
  | getNic (nic : NicRef)
  | createIpBlock (request : IpBlockRequest)
  | deleteIpBlock (block : String)
  | createFirewallRule (nic : NicRef) (request : FirewallRuleRequest)
  | listImages
  | getImage (id : String)
  | listSnapshots
  | getSnapshot (id : String)
  deriving DecidableEq, Repr

namespace Call

/-- The type of what a call answers. -/
abbrev Answer : Call → Type
  | listDatacenters => List Datacenter
  | getDatacenter _ => Option Datacenter
  | createVolume .. => Volume
  | getVolume _ => Option Volume
  | deleteVolume _ => Unit
  | createServer .. => Server
  | getServer _ => Option Server
  | listServers _ => List Server
  | deleteServer _ => Unit
  | attachVolume .. => Unit
  | rebootServer _ => Unit
  | startServer _ => Unit
  | stopServer _ => Unit
  | createNic .. => Nic
  | getNic _ => Option Nic
  | createIpBlock _ => IpBlock
  | deleteIpBlock _ => Unit
  | createFirewallRule .. => FirewallRule
  | listImages => List Image
  | getImage _ => Option Image
  | listSnapshots => List Snapshot
  | getSnapshot _ => Option Snapshot

/-- What a call answers, or why it failed. -/
abbrev Result (c : Call) : Type := Except Error c.Answer

/-! ## Texts -/

def name : Call → String
  | listDatacenters => "list_datacenters"
  | getDatacenter _ => "get_datacenter"
  | createVolume .. => "create_volume"
  | getVolume _ => "get_volume"
  | deleteVolume _ => "delete_volume"
  | createServer .. => "create_server"
  | getServer _ => "get_server"
  | listServers _ => "list_servers"
  | deleteServer _ => "delete_server"
  | attachVolume .. => "attach_volume"
  | rebootServer _ => "reboot_server"
  | startServer _ => "start_server"
  | stopServer _ => "stop_server"
  | createNic .. => "create_nic"
  | getNic _ => "get_nic"
  | createIpBlock _ => "create_ip_block"
  | deleteIpBlock _ => "delete_ip_block"
  | createFirewallRule .. => "create_firewall_rule"
  | listImages => "list_images"
  | getImage _ => "get_image"
  | listSnapshots => "list_snapshots"
  | getSnapshot _ => "get_snapshot"

/-- The resource that a call is about. -/
def subject? : Call → Option String
  | listDatacenters => none
  | getDatacenter dc => some dc
  | createVolume dc _ => some dc
  | getVolume v => some (v.datacenter ++ "/" ++ v.volume)
  | deleteVolume v => some (v.datacenter ++ "/" ++ v.volume)
  | createServer dc _ => some dc
  | getServer s => some s.text
  | listServers dc => some dc
  | deleteServer s => some s.text
  | attachVolume s v => some (s.text ++ "/" ++ v)
  | rebootServer s => some s.text
  | startServer s => some s.text
  | stopServer s => some s.text
  | createNic s _ => some s.text
  | getNic n => some (n.server.text ++ "/" ++ n.nic)
  | createIpBlock _ => none
  | deleteIpBlock b => some b
  | createFirewallRule n _ => some (n.server.text ++ "/" ++ n.nic)
  | listImages => none
  | getImage id => some id
  | listSnapshots => none
  | getSnapshot id => some id

/-- The properties that a call asks for. -/
def properties? : Call → Option Json
  | createVolume _ r => some r.properties
  | createServer _ r => some r.properties
  | createNic _ r => some r.properties
  | createIpBlock r => some r.properties
  | createFirewallRule _ r => some r.properties
  | _ => none

/-- A call in one line: its name, what it is about, and its body. -/
def text (c : Call) : String :=
  " ".intercalate ([c.name] ++ c.subject?.toList ++
    (c.properties?.map fun p => (requestBody p).render).toList)

/-! ## Changes -/

/-- The datacenter that a call changes. Blocks of addresses are in no datacenter. -/
def changes? : Call → Option String
  | createVolume dc _ => some dc
  | deleteVolume v => some v.datacenter
  | createServer dc _ => some dc
  | deleteServer s => some s.datacenter
  | attachVolume s _ => some s.datacenter
  | rebootServer s => some s.datacenter
  | startServer s => some s.datacenter
  | stopServer s => some s.datacenter
  | createNic s _ => some s.datacenter
  | createFirewallRule n _ => some n.server.datacenter
  | _ => none

def isChange : Call → Bool
  | createIpBlock _ => true
  | deleteIpBlock _ => true
  | c => c.changes?.isSome

/-! ## Answers -/

/-- Nothing but `null`. -/
def nothing : Json.Decoder Unit
  | .null => .ok ()
  | v => .error (Json.mismatch v)

/-- The reader of a call's answers. -/
def decoder : (c : Call) → Json.Decoder c.Answer
  | listDatacenters => Json.Decoder.list Datacenter.decoder
  | getDatacenter _ => Json.Decoder.orNull Datacenter.decoder
  | createVolume .. => Volume.decoder
  | getVolume _ => Json.Decoder.orNull Volume.decoder
  | deleteVolume _ => nothing
  | createServer .. => Server.decoder
  | getServer _ => Json.Decoder.orNull Server.decoder
  | listServers _ => Json.Decoder.list Server.decoder
  | deleteServer _ => nothing
  | attachVolume .. => nothing
  | rebootServer _ => nothing
  | startServer _ => nothing
  | stopServer _ => nothing
  | createNic .. => Nic.decoder
  | getNic _ => Json.Decoder.orNull Nic.decoder
  | createIpBlock _ => IpBlock.decoder
  | deleteIpBlock _ => nothing
  | createFirewallRule .. => FirewallRule.decoder
  | listImages => Json.Decoder.list Image.decoder
  | getImage _ => Json.Decoder.orNull Image.decoder
  | listSnapshots => Json.Decoder.list Snapshot.decoder
  | getSnapshot _ => Json.Decoder.orNull Snapshot.decoder

end Call

end ComputePlane
