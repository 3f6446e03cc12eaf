import ComputePlane.Json.Parser
import ComputePlane.Json.Numeral

/-!
# Values read from JSON

A `Decoder` reads a value from a tree and reports the first fault of the text otherwise. `Shape`
describes a record by its fields. An object gives the fields by name: their order and members of
other names do not matter, a repeated field is a fault. An array gives them by position.
-/

namespace ComputePlane.Json

/-- Why a text gives no value: it is not JSON, or it is JSON of another kind. -/
inductive Fault where
  | malformed
  | mismatched
  deriving DecidableEq, Repr

/-- A reader of values from trees. -/
abbrev Decoder (α : Type) := Json → Except Fault α

/-- The fault met where something else than the tree was expected. The tree is read no further than
to its kind. -/
def mismatch : Json → Fault
  | .fault => .malformed
  | .string none => .malformed
  | .number x => if x.value?.isNone then .malformed else .mismatched
  | _ => .mismatched

namespace Decoder

/-! ## Single values -/

def text : Decoder String
  | .string (some s) => .ok s
  | v => .error (mismatch v)

/-- A natural number below `bound`. -/
def natural (bound : Nat) : Decoder Nat
  | .number x =>
    match x.integer? with
    | some n => if 0 ≤ n ∧ n < bound then .ok n.toNat else .error .mismatched
    | none => .error (mismatch (.number x))
  | v => .error (mismatch v)

def word16 : Decoder Nat := natural (Number.twoTo 16)

def word32 : Decoder Nat := natural (Number.twoTo 32)

def integer : Decoder Int
  | .number x =>
    match x.integer? with
    | some n => if n < Number.twoTo 63 then .ok n else .error .mismatched
    | none => .error (mismatch (.number x))
  | v => .error (mismatch v)

def single : Decoder Number.Single
  | .number x =>
    match x.value? with
    | some v => .ok v.single
    | none => .error .malformed
  | v => .error (mismatch v)

def flag : Decoder Bool
  | .bool b => .ok b
  | v => .error (mismatch v)

/-- A name: a string, or an object with nothing but the member `name: null`. -/
def name : Decoder String
  | .string (some s) => .ok s
  | .object [(some s, .null)] => .ok s
  | _ => .error .malformed

/-! ## Combined values -/

/-- A value, or nothing for `null`. -/
def orNull {α : Type} (d : Decoder α) : Decoder (Option α)
  | .null => .ok none
  | v => (d v).map some

def items {α : Type} (d : Decoder α) : List Json → Except Fault (List α)
  | [] => .ok []
  | v :: vs => do
    let a ← d v
    let as ← items d vs
    return a :: as

def list {α : Type} (d : Decoder α) : Decoder (List α)
  | .array vs => items d vs
  | v => .error (mismatch v)

/-- A value that `f` finds for what is read. -/
def andThen {α β : Type} (d : Decoder α) (f : α → Option β) : Decoder β := fun v => do
  match f (← d v) with
  | some b => return b
  | none => throw .mismatched

/-- What is read, changed by `f`. -/
def andMap {α β : Type} (d : Decoder α) (f : α → β) : Decoder β := fun v =>
  (d v).map f

end Decoder

/-! ## Records -/

/-- The fields of a record: their names with a check of their values, and the record itself from
the values by name or by position. By position it also gives the items left over. -/
structure Shape (α : Type) where
  fields : List (String × (Json → Except Fault Unit))
  byName : (String → Option Json) → Except Fault α
  byPosition : List Json → Except Fault (α × List Json)

namespace Shape

/-- The value of an absent field, if it may be absent. -/
def orAbsent {α : Type} : Option α → Except Fault α
  | some a => .ok a
  | none => .error .mismatched

/-- A field. `absent` stands for it in an object without it, `cut` in an array too short for it. -/
def field {α : Type} (name : String) (d : Decoder α) (absent cut : Option α) : Shape α where
  fields := [(name, fun v => (d v).map fun _ => ())]
  byName look :=
    match look name with
    | some v => d v
    | none => orAbsent absent
  byPosition
    | v :: vs => (d v).map (·, vs)
    | [] => (orAbsent cut).map (·, [])

/-- A field that must be there. -/
def required {α : Type} (name : String) (d : Decoder α) : Shape α :=
  field name d none none

/-- A field that an object may leave out or set to `null`. -/
def optional {α : Type} (name : String) (d : Decoder α) : Shape (Option α) :=
  field name d.orNull (some none) none

/-- A field that an object or an array may leave out. -/
def defaulted {α : Type} (name : String) (d : Decoder α) (default : α) : Shape α :=
  field name d (some default) (some default)

/-- A record without fields. -/
def none {α : Type} (a : α) : Shape α where
  fields := []
  byName _ := .ok a
  byPosition vs := .ok (a, vs)

/-- The fields of one record, then those of the other. -/
def both {α β : Type} (f : Shape (α → β)) (s : Shape α) : Shape β where
  fields := f.fields ++ s.fields
  byName look := do
    let g ← f.byName look
    let a ← s.byName look
    return g a
  byPosition vs := do
    let (g, vs) ← f.byPosition vs
    let (a, vs) ← s.byPosition vs
    return (g a, vs)

/-- A record made from another one with the same fields. -/
def map {α β : Type} (f : α → β) (s : Shape α) : Shape β :=
  both (none f) s

instance : Applicative Shape where
  pure := none
  seq f s := both f (s ())

/-- The check of the field of a name. -/
def check? {α : Type} (s : Shape α) (name : String) : Option (Json → Except Fault Unit) :=
  s.fields.lookup name

/-- The first fault of an object's members. `seen` holds the fields that came before. -/
def scan {α : Type} (s : Shape α) : List String → List (Option String × Json) → Except Fault Unit
  | _, [] => .ok ()
  | _, (.none, _) :: _ => .error .malformed
  | seen, (some k, v) :: ms =>
    match s.check? k with
    | .none => if v.sound then scan s seen ms else .error .malformed
    | some check =>
      if k ∈ seen then .error .mismatched
      else do
        check v
        scan s (k :: seen) ms

/-- The value of the first member of a name. -/
def look (ms : List (Option String × Json)) (name : String) : Option Json :=
  ms.lookup (some name)

end Shape

def Decoder.record {α : Type} (s : Shape α) : Decoder α
  | .object ms => do
    s.scan [] ms
    s.byName (Shape.look ms)
  | .array vs => do
    let (a, rest) ← s.byPosition vs
    if rest.isEmpty then return a else throw .malformed
  | v => .error (mismatch v)

/-- The value that a text holds, with nothing but white space around it. -/
def decode {α : Type} (d : Decoder α) (s : String) : Except Fault α := do
  let a ← d (parse s).root
  if (parse s).complete then return a else throw .malformed

end ComputePlane.Json
