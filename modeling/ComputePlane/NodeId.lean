import ComputePlane.Error
import ComputePlane.Text.Basic
import ComputePlane.Text.Quoted

/-!
# References to resources

A node is named by its datacenter and its server, written with a slash between them. Neither part
is empty or holds a slash, so a text names at most one node.
-/

namespace ComputePlane

/-! ## Nodes -/

/-- A server in its datacenter. -/
structure NodeId where
  datacenter : String
  server : String
  deriving DecidableEq, Repr

namespace NodeId

/-- The datacenter and the server, a slash between them. -/
def text (n : NodeId) : String :=
  n.datacenter ++ "/" ++ n.server

/-- The node that a text names: two parts, neither empty, around the only slash. -/
def ofText? (s : String) : Option NodeId :=
  match Text.cut '/' s with
  | none => none
  | some (dc, id) =>
    if dc ≠ "" ∧ id ≠ "" ∧ '/' ∉ id.toList then some ⟨dc, id⟩ else none

/-- The node that a text names, or what was expected of the text. -/
def parse (s : String) : Except Error NodeId :=
  match ofText? s with
  | some n => .ok n
  | none => .error (.invalidId ("expected <datacenterId>/<serverId>, got " ++ Text.quoted s))

end NodeId

/-! ## Resources with a state -/

structure VolumeRef where
  datacenter : String
  volume : String
  deriving DecidableEq, Repr

structure NicRef where
  server : NodeId
  nic : String
  deriving DecidableEq, Repr

/-- A resource whose state can be watched. -/
inductive ResourceRef where
  | datacenter (id : String)
  | volume (ref : VolumeRef)
  | server (ref : NodeId)
  | nic (ref : NicRef)
  | snapshot (id : String)
  deriving DecidableEq, Repr

namespace ResourceRef

/-- The kind of the resource and the ids that lead to it. -/
def text : ResourceRef → String
  | datacenter id => "datacenter " ++ id
  | volume r => "volume " ++ r.datacenter ++ "/" ++ r.volume
  | server r => "server " ++ r.text
  | nic r => "nic " ++ r.server.text ++ "/" ++ r.nic
  | snapshot id => "snapshot " ++ id

end ResourceRef

end ComputePlane
