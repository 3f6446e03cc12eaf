import ComputePlane.Gateway.Failure
import ComputePlane.Json.Decoder
import ComputePlane.Lifecycle.Create

/-!
# Orders of nodes

What a caller of the gateway says about a new node. Its group is not blank; a node without a name
of its own is named by its group and eight hexadecimal digits.
-/

namespace ComputePlane.Gateway

open Lifecycle

/-! ## Reading -/

structure NodeOrder where
  group : String
  name : Option String
  location : String
  image : String
  hardware : String
  extraVolumesGb : List Nat
  user : Option String
  password : Option String
  privateKey : Option String
  networks : List String
  inboundPorts : List Nat
  deriving DecidableEq, Repr

namespace NodeOrder

open Json Shape Decoder

def shape : Shape NodeOrder :=
  NodeOrder.mk <$> required "group" text <*> optional "name" text <*>
    required "location_id" text <*> required "image_id" text <*> required "hardware_id" text <*>
    defaulted "extra_volumes_gb" word32.list [] <*> optional "login_user" text <*>
    optional "password" text <*> optional "private_key" text <*>
    defaulted "networks" text.list [] <*> defaulted "inbound_ports" word16.list []

def decoder : Decoder NodeOrder := record shape

/-! ## Names -/

/-- The number of digits in a name that was not chosen. -/
def suffixLength : Nat := 8

/-- Hexadecimal digits that are drawn. -/
def suffix (draws : Draws) : String :=
  String.ofList ((List.range suffixLength).map fun i => (draws i % 16).digitChar)

/-- The name of a node in a group: the one given, unless it is blank. -/
def nameIn (group : String) (given : Option String) (draws : Draws) : String :=
  (given.filter (Text.trim · ≠ "")).getD (group ++ "-" ++ suffix draws)

/-! ## Templates -/

def template (o : NodeOrder) (hardware : Hardware) : Template where
  datacenter := o.location
  image := o.image
  hardware := hardware.withExtraVolumes o.extraVolumesGb
  user := o.user
  password := o.password
  privateKey := o.privateKey
  networks := o.networks
  inboundPorts := o.inboundPorts

/-- The name and the template of the node that is ordered, or what is wrong with the order. -/
def resolve (o : NodeOrder) (draws : Draws) : Except GatewayFailure (String × Template) :=
  let group := Text.trim o.group
  if group = "" then .error (.badRequest "group must not be empty")
  else
    match Hardware.ofId o.hardware with
    | .error e => .error (.operation e)
    | .ok hardware => .ok (nameIn group o.name draws, o.template hardware)

end NodeOrder

end ComputePlane.Gateway
