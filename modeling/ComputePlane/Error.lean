import ComputePlane.HttpStatus

/-!
# Failures

The causes for which an operation fails, each with its message.
-/

namespace ComputePlane

/-! ## The steps of a creation -/

/-- A step in the creation of a node that can fail or be skipped. -/
inductive Stage where
  | provisionBootVolume
  | provisionVolume
  | provisionServer
  | allocateIpBlock
  | provisionNic
  | createFirewallRule
  | attachVolume
  | reboot
  deriving DecidableEq, Repr

namespace Stage

def all : List Stage :=
  [provisionBootVolume, provisionVolume, provisionServer, allocateIpBlock, provisionNic,
    createFirewallRule, attachVolume, reboot]

/-- The stage in words. -/
def text : Stage → String
  | provisionBootVolume => "provision boot volume"
  | provisionVolume => "provision volume"
  | provisionServer => "provision server"
  | allocateIpBlock => "allocate ip block"
  | provisionNic => "provision nic"
  | createFirewallRule => "create firewall rule"
  | attachVolume => "attach volume"
  | reboot => "reboot"

/-- The name of the stage in answers: its words joined by underscores. -/
def name (s : Stage) : String :=
  s.text.map fun c => if c = ' ' then '_' else c

def ofName? (s : String) : Option Stage :=
  all.find? (·.name = s)

end Stage

/-! ## Causes -/

/-- An answer of the cloud with a status other than the one asked for. -/
structure ApiFailure where
  endpoint : String
  status : HttpStatus
  body : String
  deriving DecidableEq, Repr

/-- The operation, the status and the body of the answer. -/
def ApiFailure.message (f : ApiFailure) : String :=
  "profitbricks api " ++ f.endpoint ++ " returned " ++ f.status.text ++ ": " ++ f.body

/-- Why an operation failed. -/
inductive Error where
  /-- The cloud refused. -/
  | api (failure : ApiFailure)
  /-- No answer came, or one that could not be read. -/
  | request
  | backend (text : String)
  | notFound (kind id : String)
  | invalidId (text : String)
  /-- A step without which the operation cannot go on failed. -/
  | fatal (stage : Stage) (source : Error)
  | invariantViolation (text : String)
  | managerClosed
  | jobAborted (datacenter : String)
  | missingVariable (name : String)
  | invalidSetting (key value : String)
  deriving DecidableEq, Repr

namespace Error

def message : Error → String
  | api f => "profitbricks api error: " ++ f.message
  | request => "profitbricks api error: profitbricks api request failed"
  | backend text => "backend error: " ++ text
  | notFound kind id => kind ++ " not found: " ++ id
  | invalidId text => "invalid id: " ++ text
  | fatal stage source => "failed to " ++ stage.text ++ ": " ++ source.message
  | invariantViolation text => "invariant violated: " ++ text
  | managerClosed => "provisioning manager is closed"
  | jobAborted dc => "provisioning job for datacenter " ++ dc ++ " aborted before completing"
  | missingVariable name => "missing env var: " ++ name
  | invalidSetting key value => "invalid value for " ++ key ++ ": " ++ value

/-- Something is absent, also where that stopped a larger operation. -/
def isNotFound : Error → Bool
  | notFound .. => true
  | fatal _ source => source.isNotFound
  | _ => false

end Error

end ComputePlane
