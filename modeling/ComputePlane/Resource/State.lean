/-!
# States and kinds of resources

The enumerated properties of resources with the names they have in texts. A name that is none of
these reads as `unrecognized`, but a type of volume has to be known.
-/

namespace ComputePlane

/-! ## Provisioning -/

/-- How far the cloud is with the changes asked of a resource. -/
inductive State where
  | available
  | busy
  | inactive
  | deploying
  | failed
  | unrecognized
  deriving DecidableEq, Repr

namespace State

def name : State → String
  | available => "AVAILABLE"
  | busy => "BUSY"
  | inactive => "INACTIVE"
  | deploying => "DEPLOYING"
  | failed => "FAILED"
  | unrecognized => "UNRECOGNIZED"

def ofName (s : String) : State :=
  ([available, busy, inactive, deploying, failed].find? (·.name = s)).getD unrecognized

/-- The cloud is still applying a change. -/
def isTransitional : State → Bool
  | busy => true
  | deploying => true
  | _ => false

end State

/-! ## Power -/

inductive VmState where
  | running
  | shutoff
  | shutdown
  | paused
  | blocked
  | crashed
  | unrecognized
  deriving DecidableEq, Repr

namespace VmState

def name : VmState → String
  | running => "RUNNING"
  | shutoff => "SHUTOFF"
  | shutdown => "SHUTDOWN"
  | paused => "PAUSED"
  | blocked => "BLOCKED"
  | crashed => "CRASHED"
  | unrecognized => "UNRECOGNIZED"

def ofName (s : String) : VmState :=
  ([running, shutoff, shutdown, paused, blocked, crashed].find? (·.name = s)).getD unrecognized

end VmState

/-! ## Kinds -/

/-- The licence of what is installed on a volume. -/
inductive LicenceType where
  | windows
  | windows2016
  | linux
  | other
  | unknown
  | unrecognized
  deriving DecidableEq, Repr

namespace LicenceType

def name : LicenceType → String
  | windows => "WINDOWS"
  | windows2016 => "WINDOWS2016"
  | linux => "LINUX"
  | other => "OTHER"
  | unknown => "UNKNOWN"
  | unrecognized => "UNRECOGNIZED"

def ofName (s : String) : LicenceType :=
  ([windows, windows2016, linux, other, unknown].find? (·.name = s)).getD unrecognized

end LicenceType

/-- The medium that an image is one of. -/
inductive ImageType where
  | hdd
  | cdrom
  | unrecognized
  deriving DecidableEq, Repr

namespace ImageType

def name : ImageType → String
  | hdd => "HDD"
  | cdrom => "CDROM"
  | unrecognized => "UNRECOGNIZED"

/-- The medium of a name. -/
def ofName (s : String) : ImageType :=
  ([hdd, cdrom].find? (·.name = s)).getD unrecognized

end ImageType

inductive VolumeType where
  | hdd
  | ssd
  deriving DecidableEq, Repr

namespace VolumeType

def name : VolumeType → String
  | hdd => "HDD"
  | ssd => "SSD"

def ofName? (s : String) : Option VolumeType :=
  [hdd, ssd].find? (·.name = s)

end VolumeType

end ComputePlane
