import ComputePlane.Error
import ComputePlane.IpAddress
import ComputePlane.Poll
import ComputePlane.Resource.State
import ComputePlane.Text.Basic

/-!
# Settings

What the service is told from outside, as texts looked up by name: the account at the cloud, the
tuning of the node operations, and where the gateway listens. A setting that is blank has its
default; of several bad settings the first in the order of reading is reported.
-/

namespace ComputePlane

open Number

/-! ## Node operations -/

/-- The tuning of the node operations. Pauses are in nanoseconds. -/
structure AdapterSettings where
  poll : PollPolicy := .ofSeconds 900 2 5
  defaultLan : Nat := 1
  preRebootPause : Nat := 5 * second
  postRebootPause : Nat := 30 * second
  userThreads : Nat := 10
  volumeType : VolumeType := .hdd
  deriving DecidableEq, Repr

/-! ## The account -/

/-- The account at the cloud and the tuning. -/
structure Settings where
  username : String
  password : String
  endpoint : String
  adapter : AdapterSettings
  deriving DecidableEq, Repr

/-- Texts by name. -/
abbrev Lookup := String → Option String

/-- Where the cloud answers unless a setting says otherwise. -/
def defaultEndpoint : String := "https://api.profitbricks.com/cloudapi/v4"

/-- A number setting; blank characters around it do not count. -/
def Lookup.number (look : Lookup) (read : String → Option Nat) (key : String) (default : Nat) :
    Except Error Nat :=
  match look key with
  | none => .ok default
  | some v =>
    if Text.trim v = "" then .ok default
    else
      match read (Text.trim v) with
      | some n => .ok n
      | none => .error (.invalidSetting key v)

/-- A setting that has to be there. -/
def Lookup.required (look : Lookup) (key : String) : Except Error String :=
  match (look key).filter (· ≠ "") with
  | some v => .ok v
  | none => .error (.missingVariable key)

/-- The policy of waits, in seconds. Its first pause is no longer than its longest. -/
def Lookup.poll (look : Lookup) : Except Error PollPolicy := do
  let timeout ← look.number word64? "PROFITBRICKS_POLL_TIMEOUT_SECS" 900
  let period ← look.number word64? "PROFITBRICKS_POLL_PERIOD_SECS" 2
  let maxPeriod ← look.number word64? "PROFITBRICKS_POLL_MAX_PERIOD_SECS" 5
  if maxPeriod < period then
    throw (.invalidSetting "PROFITBRICKS_POLL_PERIOD_SECS"
      (decimal period ++ " exceeds max period " ++ decimal maxPeriod))
  return .ofSeconds timeout period maxPeriod

def Lookup.volumeType (look : Lookup) : Except Error VolumeType :=
  match look "PROFITBRICKS_VOLUME_TYPE" with
  | none => .ok .hdd
  | some v =>
    if v = "" then .ok .hdd
    else if Text.sameFolded v "hdd" then .ok .hdd
    else if Text.sameFolded v "ssd" then .ok .ssd
    else .error (.invalidSetting "PROFITBRICKS_VOLUME_TYPE" v)

/-- How many reads of a listing run side by side: at least one. -/
def Lookup.userThreads (look : Lookup) : Except Error Nat := do
  let n ← look.number word64? "PROFITBRICKS_USER_THREADS" 10
  if n = 0 then throw (.invalidSetting "PROFITBRICKS_USER_THREADS" "0")
  return n

def Settings.ofLookup (look : Lookup) : Except Error Settings := do
  let poll ← look.poll
  let volumeType ← look.volumeType
  let userThreads ← look.userThreads
  let username ← look.required "PROFITBRICKS_USERNAME"
  let password ← look.required "PROFITBRICKS_PASSWORD"
  let lan ← look.number word32? "PROFITBRICKS_DEFAULT_LAN_ID" 1
  let pre ← look.number word64? "PROFITBRICKS_PRE_REBOOT_PAUSE_SECS" 5
  let post ← look.number word64? "PROFITBRICKS_POST_REBOOT_PAUSE_SECS" 30
  return {
    username := username
    password := password
    endpoint := ((look "PROFITBRICKS_ENDPOINT").filter (· ≠ "")).getD defaultEndpoint
    adapter :=
      ⟨poll, lan, pre * second, post * second, userThreads, volumeType⟩ }

/-! ## The gateway -/

/-- Where the gateway listens and the key that its callers show. -/
structure GatewaySettings where
  listen : SocketAddress
  key : String
  deriving DecidableEq, Repr

/-- Where the gateway listens unless a setting says otherwise. -/
def defaultListen : String := "0.0.0.0:8080"

/-- The settings found by name. Without a key or with an address that is none there are none. -/
def GatewaySettings.ofLookup? (look : Lookup) : Option GatewaySettings := do
  let listen ← SocketAddress.parse? ((look "LISTEN_ADDR").getD defaultListen)
  let key ← look "CONTROL_PLANE_API_KEY"
  return ⟨listen, key⟩

end ComputePlane
