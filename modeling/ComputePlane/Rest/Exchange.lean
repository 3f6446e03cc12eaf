import ComputePlane.Cloud.Call
import ComputePlane.MediaType
import ComputePlane.Rest.Url
import ComputePlane.Text.Charset

/-!
# Exchanges with the cloud

What is sent for each call, and how the answer is read. A lookup takes the status 404 for absence, a
delete takes it for success, an action reads nothing but the status, and all others read a value. A
refusal tells the body as text, read in the character set that the type of the body names. `others`
are the sets that can be named beside those of Unicode and the western one.
-/

namespace ComputePlane.Rest

open Number

/-! ## Answers -/

/-- An answer of the cloud. A body that was cut short is not `complete`. -/
structure Response where
  status : HttpStatus
  contentType : Option String
  bytes : List Nat
  complete : Bool
  deriving DecidableEq, Repr

namespace Response

/-- The bytes of the body, unless it was cut short. Some statuses have no body. -/
def content? (r : Response) : Option (List Nat) :=
  if r.status.code = 204 ∨ r.status.code = 304 then some []
  else if r.complete then some r.bytes
  else none

/-- The label of a character set in the type of the body. -/
def label? (r : Response) : Option String := do
  let type ← MediaType.ofText? (← r.contentType)
  type.parameter? "charset"

/-- The character set of the body, UTF-8 if no other one is named. -/
def charset (others : Text.Charset.Others) (r : Response) : Text.Charset :=
  (r.label?.map (.ofLabel others)).getD .utf8

/-- The body as text; one that was cut short is empty. -/
def text (others : Text.Charset.Others) (r : Response) : String :=
  (r.content?.map (r.charset others).decode).getD ""

end Response

/-! ## Failures -/

/-- Why a call fails: the cloud refused, or no answer came that could be read. -/
inductive Failure where
  | refused (failure : ApiFailure)
  | request
  deriving DecidableEq, Repr

/-- The failure among those of all operations. -/
def Failure.toError : Failure → Error
  | refused f => .api f
  | request => .request

/-! ## Reading answers -/

section Reading

variable {α : Type} (others : Text.Charset.Others)

/-- The refusal that an answer is, of the call of a name. -/
def refusal (name : String) (r : Response) : Failure :=
  .refused ⟨name, r.status, r.text others⟩

def bodyValue (d : Json.Decoder α) (r : Response) : Except Failure α :=
  match r.content?.bind Text.Utf8.strict? with
  | none => .error .request
  | some s =>
    match Json.decode d s with
    | .ok a => .ok a
    | .error _ => .error .request

/-- A value of an answer that is no refusal. -/
def readValue (name : String) (d : Json.Decoder α) (r : Response) :
    Except Failure α :=
  if r.status.isSuccess then bodyValue d r else .error (refusal others name r)

/-- A value that can be absent. -/
def readOptional (name : String) (d : Json.Decoder α) (r : Response) :
    Except Failure (Option α) :=
  if r.status.code = 404 then .ok none else (readValue others name d r).map some

def readDone (name : String) (r : Response) : Except Failure Unit :=
  if r.status.isSuccess then .ok () else .error (refusal others name r)

def readGone (name : String) (r : Response) : Except Failure Unit :=
  if r.status.code = 404 then .ok () else readDone others name r

end Reading

/-! ## Requests -/

inductive Method where
  | get
  | post
  | delete
  deriving DecidableEq, Repr

def Method.name : Method → String
  | get => "GET"
  | post => "POST"
  | delete => "DELETE"

/-- What a request carries. -/
inductive Payload where
  | nothing
  | emptyForm
  | json (value : Json)
  deriving Repr

namespace Payload

def contentType : Payload → Option String
  | nothing => none
  | emptyForm => some "application/x-www-form-urlencoded"
  | json _ => some "application/json"

/-- What is carried, as text. -/
def text : Payload → String
  | json v => v.render
  | _ => ""

end Payload

/-- A request, below the path of the client's endpoint, and how its answer is read. The depth says
how far below a resource the answer goes. -/
structure Exchange (α : Type) where
  method : Method
  path : String
  depth : Option Nat := none
  payload : Payload := .nothing
  read : Text.Charset.Others → Response → Except Failure α

namespace Exchange

variable {α β : Type}

/-- The exchange with what is read changed by `f`. -/
def map (f : α → β) (x : Exchange α) : Exchange β :=
  { x with read := fun others r => (x.read others r).map f }

/-- Reads a value. -/
def fetch (name path : String) (depth : Option Nat) (d : Json.Decoder α) : Exchange α :=
  { method := .get, path := path, depth := depth, read := (readValue · name d) }

/-- Reads a value that can be absent. -/
def look (name path : String) (depth : Option Nat) (d : Json.Decoder α) : Exchange (Option α) :=
  { method := .get, path := path, depth := depth, read := (readOptional · name d) }

/-- Sends a value and reads what becomes of it. -/
def post (name path : String) (body : Json) (d : Json.Decoder α) : Exchange α :=
  { method := .post, path := path, payload := .json body, read := (readValue · name d) }

/-- Has something done. -/
def act (name path : String) : Exchange Unit :=
  { method := .post, path := path, payload := .emptyForm, read := (readDone · name) }

/-- Has something deleted. -/
def delete (name path : String) : Exchange Unit :=
  { method := .delete, path := path, read := (readGone · name) }

end Exchange

/-! ## Paths -/

def datacenterPath (dc : String) : String := "/datacenters/" ++ dc

def volumesPath (dc : String) : String := datacenterPath dc ++ "/volumes"

def volumePath (v : VolumeRef) : String := volumesPath v.datacenter ++ "/" ++ v.volume

def serversPath (dc : String) : String := datacenterPath dc ++ "/servers"

def serverPath (s : NodeId) : String := serversPath s.datacenter ++ "/" ++ s.server

def nicsPath (s : NodeId) : String := serverPath s ++ "/nics"

def nicPath (n : NicRef) : String := nicsPath n.server ++ "/" ++ n.nic

def rulesPath (n : NicRef) : String := nicPath n ++ "/firewallrules"

/-! ## Calls -/

/-- The depth at which a server comes with its volumes and network interfaces. -/
def serverDepth : Nat := 5

/-- Attaches a volume and reads it. -/
def attachment (s : NodeId) (volume : String) : Exchange Volume :=
  .post "attach volume" (serverPath s ++ "/volumes") (.record [("id", .text volume)]) Volume.decoder

/-- Reads the rules of a network interface. -/
def firewallRules (n : NicRef) : Exchange (List FirewallRule) :=
  .fetch "list firewall rules" (rulesPath n) (some 1) (collection FirewallRule.decoder)

def exchange : (c : Call) → Exchange c.Answer
  | .listDatacenters =>
    .fetch "list datacenters" "/datacenters" (some 1) (collection Datacenter.decoder)
  | .getDatacenter dc => .look "get datacenter" (datacenterPath dc) (some 1) Datacenter.decoder
  | .createVolume dc r =>
    .post "create volume" (volumesPath dc) (requestBody r.properties) Volume.decoder
  | .getVolume v => .look "get volume" (volumePath v) none Volume.decoder
  | .deleteVolume v => .delete "delete volume" (volumePath v)
  | .createServer dc r =>
    .post "create server" (serversPath dc) (requestBody r.properties) Server.decoder
  | .getServer s => .look "get server" (serverPath s) (some serverDepth) Server.decoder
  | .listServers dc =>
    .fetch "list servers" (serversPath dc) (some serverDepth) (collection Server.decoder)
  | .deleteServer s => .delete "delete server" (serverPath s)
  | .attachVolume s volume => (attachment s volume).map fun _ => ()
  | .rebootServer s => .act "reboot server" (serverPath s ++ "/reboot")
  | .startServer s => .act "start server" (serverPath s ++ "/start")
  | .stopServer s => .act "stop server" (serverPath s ++ "/stop")
  | .createNic s r => .post "create nic" (nicsPath s) (requestBody r.properties) Nic.decoder
  | .getNic n => .look "get nic" (nicPath n) none Nic.decoder
  | .createIpBlock r =>
    .post "create ip block" "/ipblocks" (requestBody r.properties) IpBlock.decoder
  | .deleteIpBlock b => .delete "delete ip block" ("/ipblocks/" ++ b)
  | .createFirewallRule n r =>
    .post "create firewall rule" (rulesPath n) (requestBody r.properties) FirewallRule.decoder
  | .listImages => .fetch "list images" "/images" (some 1) (collection Image.decoder)
  | .getImage id => .look "get image" ("/images/" ++ id) none Image.decoder
  | .listSnapshots => .fetch "list snapshots" "/snapshots" (some 1) (collection Snapshot.decoder)
  | .getSnapshot id => .look "get snapshot" ("/snapshots/" ++ id) none Snapshot.decoder

end ComputePlane.Rest
