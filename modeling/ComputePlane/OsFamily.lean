import ComputePlane.Resource.State
import ComputePlane.Text.Basic

/-!
# Families of operating systems

The families that names of images and texts of snapshots tell, and those that licences tell.
-/

namespace ComputePlane

inductive OsFamily where
  | windows
  | linux
  | ubuntu
  | debian
  | centos
  | fedora
  | rhel
  | opensuse
  | suse
  | coreos
  | unrecognized
  deriving DecidableEq, Repr

namespace OsFamily

def name : OsFamily → String
  | windows => "windows"
  | linux => "linux"
  | ubuntu => "ubuntu"
  | debian => "debian"
  | centos => "centos"
  | fedora => "fedora"
  | rhel => "rhel"
  | opensuse => "opensuse"
  | suse => "suse"
  | coreos => "coreos"
  | unrecognized => "unrecognized"

/-- The families that are told by name, narrower ones before those whose name they may hold. -/
def named : List OsFamily :=
  [windows, ubuntu, debian, centos, fedora, rhel, opensuse, suse, coreos, linux]

/-- The family of a name, in letters of any case. -/
def ofName? (s : String) : Option OsFamily :=
  named.find? fun f => Text.sameFolded f.name s

/-- The first family whose name stands somewhere in a text of small letters. -/
def within? (s : String) : Option OsFamily :=
  named.find? fun f => Text.contains s f.name

def ofLicence : Option LicenceType → OsFamily
  | some .windows => windows
  | some .windows2016 => windows
  | some .linux => linux
  | _ => unrecognized

end OsFamily

end ComputePlane
