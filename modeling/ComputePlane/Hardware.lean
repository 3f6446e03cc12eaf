import ComputePlane.Error
import ComputePlane.Number.Decimal
import ComputePlane.Text.Basic
import ComputePlane.Text.Quoted

/-!
# Hardware of a node

Cores, memory and volumes, and the ids `cpu=C,ram=R,disk=D` that name them by their total disk.
-/

namespace ComputePlane

open Number

/-- The shape of a node. The first volume is the one it starts from. -/
structure Hardware where
  cores : Nat
  ramMb : Nat
  volumesGb : List Nat
  deriving DecidableEq, Repr

namespace Hardware

/-! ## Ids -/

def idOf (cores ramMb diskGb : Nat) : String :=
  "cpu=" ++ decimal cores ++ ",ram=" ++ decimal ramMb ++ ",disk=" ++ decimal diskGb

/-- The sizes of all volumes together. The sum is taken without wrap-around: the program adds in 32
bits, so the two agree while the total has 32 bits. -/
def totalGb (h : Hardware) : Nat :=
  total h.volumesGb

def id (h : Hardware) : String :=
  idOf h.cores h.ramMb h.totalGb

/-- A size: a number of 32 bits, or a decimal fraction equal to one. -/
def size? (s : String) : Option Nat :=
  match word32? s with
  | some n => some n
  | none => (double? s).bind (Binary.exactNat? (twoTo 32 - 1))

/-- The three numbers of an id, as far as they were met. -/
structure Sizes where
  cores : Option Nat
  ramMb : Option Nat
  diskGb : Option Nat
  deriving DecidableEq, Repr

/-- Takes a part `key=size` of an id up into the sizes. The last part of a key counts. -/
def Sizes.take? (s : Sizes) (part : String) : Option Sizes := do
  let (key, value) ← Text.cut '=' (Text.trim part)
  let n ← size? value
  match key with
  | "cpu" => some { s with cores := some n }
  | "ram" => some { s with ramMb := some n }
  | "disk" => some { s with diskGb := some n }
  | _ => none

/-- The shape with one volume that has the given sizes, all of them at least one. -/
def Sizes.hardware? (s : Sizes) : Option Hardware :=
  match s.cores, s.ramMb, s.diskGb with
  | some c, some r, some d => if 0 < c ∧ 0 < r ∧ 0 < d then some ⟨c, r, [d]⟩ else none
  | _, _, _ => none

/-- The shape that an id names. -/
def ofId? (id : String) : Option Hardware :=
  ((Text.split ',' id).foldlM Sizes.take? ⟨none, none, none⟩).bind Sizes.hardware?

/-- The shape that an id names, or what was expected of the id. -/
def ofId (id : String) : Except Error Hardware :=
  match ofId? id with
  | some h => .ok h
  | none => .error (.invalidId ("expected cpu=C,ram=R,disk=D, got " ++ Text.quoted id))

/-- Further volumes; sizes of zero are passed over. -/
def withExtraVolumes (h : Hardware) (extraGb : List Nat) : Hardware :=
  { h with volumesGb := h.volumesGb ++ extraGb.filter (0 < ·) }

/-! ## The catalogue -/

def maxCores : Nat := 48

/-- The sizes of memory on offer, in megabytes. -/
def ramSizesMb : List Nat :=
  [1, 2, 4, 8, 10, 16, 24, 28, 32].map (· * 1024)

/-- The sizes of disks on offer, in gigabytes. -/
def diskSizesGb : List Nat :=
  [10, 20, 30, 50, 80, 100, 150, 200, 250, 500]

def profiles : List Hardware :=
  (List.range maxCores).flatMap fun c =>
    ramSizesMb.flatMap fun r => diskSizesGb.map fun d => ⟨c + 1, r, [d]⟩

end Hardware

end ComputePlane
