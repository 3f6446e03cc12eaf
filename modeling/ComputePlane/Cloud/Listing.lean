import ComputePlane.Catalog
import ComputePlane.Cloud.Backend

/-!
# Listings made of many calls

Some listings look up many things at once. They keep a bounded number of entries in flight in the
order of the list; an entry leaves only when all before it have left, and the first entry of the
list that fails ends the listing. The catalogue of images asks for images and snapshots at once and
ends with whichever fails first.
-/

namespace ComputePlane

/-! ## What is looked up -/

/-- The kind of a listing: what is looked up for each key. -/
inductive Topic where
  /-- The datacenter of an id, unless it has vanished. -/
  | locations
  /-- The nodes in a datacenter. -/
  | servers
  /-- The node of a text. -/
  | nodes
  deriving DecidableEq, Repr

namespace Topic

/-- What is found for a key. -/
abbrev Value : Topic → Type
  | locations => Option Datacenter
  | servers => List Node
  | nodes => Node

/-- A call, and what its result means for the listing. -/
structure Lookup (t : Topic) where
  call : Call
  read : call.Result → Except Error t.Value

/-- The node that looking up a server gives. -/
def foundNode (text : String) (id : NodeId) (found : Except Error (Option Server)) :
    Except Error Node := do
  match ← found with
  | some s => return ⟨s, id.datacenter⟩
  | none => throw (.notFound "node" text)

/-- How a key is looked up, or why it cannot be. -/
def lookup : (t : Topic) → String → Except Error t.Lookup
  | locations, dc => .ok ⟨.getDatacenter dc, fun r => r⟩
  | servers, dc => .ok ⟨.listServers dc, fun r => r.map (·.map (⟨·, dc⟩))⟩
  | nodes, text => do
    let id ← NodeId.parse text
    return ⟨.getServer id, foundNode text id⟩

end Topic

/-! ## Many entries in flight -/

/-- An entry in flight: not begun, waiting for its answer, or done. -/
inductive Slot (t : Topic) where
  | fresh (key : String)
  | waiting (lookup : t.Lookup) (pending : Pending)
  | settled (result : Except Error t.Value)

namespace Slot

variable {t : Topic}

/-- When an entry gets its answer. -/
def due? : Slot t → Option Nat
  | waiting _ p => some p.due
  | _ => none

/-- An entry whose call has been made, done if it is due. -/
def reach (now : Nat) (b : Backend) (l : t.Lookup) (p : Pending) : Slot t × Backend :=
  if p.due ≤ now then
    let (r, b) := b.settle l.call p
    (settled (l.read r), b)
  else (waiting l p, b)

/-- An entry begun. -/
def begin (now : Nat) (b : Backend) (key : String) : Slot t × Backend :=
  match t.lookup key with
  | .error e => (settled (.error e), b)
  | .ok l =>
    let (p, b) := b.arrive now l.call
    reach now b l p

/-- The entries with the first one advanced that is not begun or is due, if there is one. -/
def advance (now : Nat) (b : Backend) : List (Slot t) → Option (List (Slot t) × Backend)
  | [] => none
  | fresh key :: rest => let (s, b) := begin now b key; some (s :: rest, b)
  | waiting l p :: rest =>
    if p.due ≤ now then let (s, b) := reach now b l p; some (s :: rest, b)
    else (advance now b rest).map fun r => (waiting l p :: r.1, r.2)
  | settled r :: rest => (advance now b rest).map fun q => (settled r :: q.1, q.2)

end Slot

/-- A listing that is going on: how many entries may be in flight, the keys not yet in flight, the
entries in flight, and the values of those that have left. -/
structure Gathering (t : Topic) where
  width : Nat
  keys : List String
  slots : List (Slot t)
  found : List t.Value

namespace Gathering

variable {t : Topic}

/-- A listing that begins. -/
def start (t : Topic) (width : Nat) (keys : List String) : Gathering t :=
  ⟨width, keys, [], []⟩

/-- The listing with as many entries in flight as may be. -/
def fill (g : Gathering t) : Gathering t :=
  let room := g.width - g.slots.length
  { g with keys := g.keys.drop room, slots := g.slots ++ (g.keys.take room).map .fresh }

/-- Goes on at the time `now`, in at most `count` moves. -/
def moves (now : Nat) : Nat → Backend → Gathering t →
    (Except Error (List t.Value) ⊕ Gathering t) × Backend
  | 0, b, g => (.inr g, b)
  | count + 1, b, g =>
    let g := g.fill
    match g.slots with
    | [] => (.inl (.ok g.found), b)
    | .settled (.error e) :: _ => (.inl (.error e), b)
    | .settled (.ok v) :: rest =>
      moves now count b { g with slots := rest, found := g.found ++ [v] }
    | slots =>
      match Slot.advance now b slots with
      | none => (.inr g, b)
      | some (slots, b) => moves now count b { g with slots := slots }

/-- Goes on at the time `now`. Each entry is begun, gets its answer and leaves. -/
def poll (now : Nat) (b : Backend) (g : Gathering t) :
    (Except Error (List t.Value) ⊕ Gathering t) × Backend :=
  moves now (3 * (g.keys.length + g.slots.length) + 1) b g

/-- The time at which the listing goes on. -/
def wake (g : Gathering t) : Nat :=
  ((g.slots.filterMap Slot.due?).min?).getD 0

end Gathering

/-! ## Two calls at once -/

/-- One of two calls made at once. -/
inductive Half (c : Call) where
  | fresh
  | waiting (pending : Pending)
  | got (answer : c.Answer)

namespace Half

variable {c : Call}

/-- A call that has been made, answered if it is due. -/
def reach (now : Nat) (b : Backend) (p : Pending) : Except Error (Half c) × Backend :=
  if p.due ≤ now then
    let (r, b) := b.settle c p
    (r.map .got, b)
  else (.ok (.waiting p), b)

/-- Goes on at the time `now`. -/
def poll (now : Nat) (b : Backend) : Half c → Except Error (Half c) × Backend
  | fresh => let (p, b) := b.arrive now c; reach now b p
  | waiting p => reach now b p
  | got a => (.ok (.got a), b)

/-- When the answer comes. -/
def due? : Half c → Option Nat
  | waiting p => some p.due
  | _ => none

end Half

/-- The images and snapshots being fetched. -/
structure Fetching where
  images : Half .listImages
  snapshots : Half .listSnapshots
  /-- Whether the snapshots go on first; the two take turns in that. -/
  snapshotsFirst : Bool

/-- All images and snapshots. -/
abbrev Sources := List Image × List Snapshot

namespace Fetching

/-- Both calls are still to be made. -/
def start : Fetching := ⟨.fresh, .fresh, false⟩

/-- Goes on at the time `now`. -/
def poll (now : Nat) (b : Backend) (f : Fetching) : (Except Error Sources ⊕ Fetching) × Backend :=
  let close (i : Half .listImages) (s : Half .listSnapshots) : Except Error Sources ⊕ Fetching :=
    match i, s with
    | .got images, .got snapshots => .inl (.ok (images, snapshots))
    | i, s => .inr ⟨i, s, !f.snapshotsFirst⟩
  if f.snapshotsFirst then
    match f.snapshots.poll now b with
    | (.error e, b) => (.inl (.error e), b)
    | (.ok s, b) =>
      match f.images.poll now b with
      | (.error e, b) => (.inl (.error e), b)
      | (.ok i, b) => (close i s, b)
  else
    match f.images.poll now b with
    | (.error e, b) => (.inl (.error e), b)
    | (.ok i, b) =>
      match f.snapshots.poll now b with
      | (.error e, b) => (.inl (.error e), b)
      | (.ok s, b) => (close i s, b)

/-- The time at which the fetching goes on. -/
def wake (f : Fetching) : Nat :=
  ((f.images.due?.toList ++ f.snapshots.due?.toList).min?).getD 0

/-- A bound on how often the fetching goes on. -/
def patience : Nat := 3

end Fetching

end ComputePlane
