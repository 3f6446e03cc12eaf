import ComputePlane.Node

/-!
# Images, snapshots and locations

What a node can be made from and where it can be placed. The name of an image tells its family and
its version; of a snapshot name and description are searched for a family.
-/

namespace ComputePlane

open Json

/-! ## Images and snapshots -/

/-- Something that a boot volume can be made from. -/
inductive BootSource where
  | image (image : Image)
  | snapshot (snapshot : Snapshot)
  deriving DecidableEq, Repr

def BootSource.id : BootSource → String
  | image i => i.id
  | snapshot s => s.id

/-- The two kinds of boot sources. -/
inductive ImageKind where
  | image
  | snapshot
  deriving DecidableEq, Repr

def ImageKind.name : ImageKind → String
  | image => "image"
  | snapshot => "snapshot"

/-- Whether nodes can be made from an image. -/
inductive ImageStatus where
  | available
  | pending
  | unrecognized
  deriving DecidableEq, Repr

namespace ImageStatus

def name : ImageStatus → String
  | available => "AVAILABLE"
  | pending => "PENDING"
  | unrecognized => "UNRECOGNIZED"

/-- The status that the state of a snapshot tells. -/
def ofState : Option State → ImageStatus
  | some .available => available
  | some .busy => pending
  | some .inactive => pending
  | _ => unrecognized

end ImageStatus

structure ImageDescription where
  id : String
  kind : ImageKind
  name : Option String
  description : Option String
  location : Option String
  status : ImageStatus
  osFamily : OsFamily
  osVersion : String
  is64bit : Bool
  deriving DecidableEq, Repr

/-- The version in an image's name: the first part with a digit after the first of the parts between
hyphens, in small letters. -/
def imageVersion (name : String) : String :=
  (((Text.split '-' (Text.lower name)).drop 1).find? fun part =>
    part.toList.any Number.isDigit).getD ""

/-- The family in an image's name: the part before the first hyphen. -/
def imageFamily? (name : String) : Option OsFamily :=
  OsFamily.ofName? ((Text.split '-' name).headD "")

/-- An image is one of 64 bits unless it is a disc whose name does not say so. -/
def Image.is64bit (i : Image) : Bool :=
  match i.properties.type, i.properties.name with
  | some .cdrom, some name =>
    let name := Text.lower name
    name = "" || Text.contains name "x86_64" || Text.contains name "amd64"
  | _, _ => true

def Image.describe (i : Image) : ImageDescription :=
  let p := i.properties
  { id := i.id
    kind := .image
    name := p.name
    description := p.description
    location := p.location
    status := .available
    osFamily := (p.name.bind imageFamily?).getD (.ofLicence p.licence)
    osVersion := (p.name.map imageVersion).getD ""
    is64bit := i.is64bit }

/-- The version of every snapshot. -/
def snapshotVersion : String := "00.00"

def Snapshot.describe (s : Snapshot) : ImageDescription :=
  let p := s.properties
  let text := Text.lower (p.name.getD "" ++ p.description.getD "")
  { id := s.id
    kind := .snapshot
    name := p.name
    description := p.description
    location := p.location
    status := .ofState s.state
    osFamily := (OsFamily.within? text).getD (.ofLicence p.licence)
    osVersion := snapshotVersion
    is64bit := true }

def BootSource.describe : BootSource → ImageDescription
  | image i => i.describe
  | snapshot s => s.describe

def ImageDescription.toJson (d : ImageDescription) : Json :=
  record
    [("id", .text d.id), ("kind", .text d.kind.name), ("name", textOrNull d.name),
      ("description", textOrNull d.description), ("location", textOrNull d.location),
      ("status", .text d.status.name), ("os_family", .text d.osFamily.name),
      ("os_version", .text d.osVersion), ("is_64bit", .bool d.is64bit)]

/-! ## Locations -/

/-- A place for nodes: a datacenter with its name and the region it belongs to. -/
structure Location where
  id : String
  description : Option String
  parentRegion : Option String
  deriving DecidableEq, Repr

def Datacenter.toLocation (d : Datacenter) : Location :=
  ⟨d.id, d.properties.name, d.properties.location⟩

def Location.toJson (l : Location) : Json :=
  record [("id", .text l.id), ("description", textOrNull l.description),
    ("parent_region", textOrNull l.parentRegion)]

/-! ## Hardware -/

def Hardware.toJson (h : Hardware) : Json :=
  record [("id", .text h.id), ("cores", ofNat h.cores), ("ram_mb", ofNat h.ramMb),
    ("volumes_gb", .array (h.volumesGb.map ofNat))]

end ComputePlane
