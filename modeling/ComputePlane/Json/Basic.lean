/-!
# JSON texts as trees

A tree holds a text the way a reader meets it: numbers as written, strings with their escapes
undone, members in order and with repetitions. What is wrong with a text is a leaf of its tree, so
a reader that goes through the tree in order comes upon faults in the order of the text.
-/

namespace ComputePlane

/-- A number as written. The digits of `whole` start with a zero only if it is the only one;
`fraction` is empty where no point is written. -/
structure Json.Numeral where
  negative : Bool
  whole : List Nat
  fraction : List Nat
  exponent : Option Int
  deriving DecidableEq, Repr

/-- A JSON text. A string whose escapes leave half of a surrogate pair alone has no characters, and
`fault` stands for the rest of a text from the place where it stops to be JSON. -/
inductive Json where
  | null
  | bool (value : Bool)
  | number (value : Json.Numeral)
  | string (chars : Option String)
  | array (items : List Json)
  | object (members : List (Option String × Json))
  | fault
  deriving Repr

namespace Json

/-- A string with its characters. -/
def text (s : String) : Json := .string (some s)

/-- Digits without sign, point and exponent. -/
def Numeral.natural (ds : List Nat) : Numeral := ⟨false, ds, [], none⟩

/-- An object with the given members. -/
def record (members : List (String × Json)) : Json :=
  .object (members.map fun m => (some m.1, m.2))

mutual

/-- The whole text is JSON. -/
def sound : Json → Bool
  | .fault => false
  | .array items => soundItems items
  | .object members => soundMembers members
  | _ => true

/-- No item holds a fault. -/
def soundItems : List Json → Bool
  | [] => true
  | v :: vs => v.sound && soundItems vs

/-- No member holds a fault. -/
def soundMembers : List (Option String × Json) → Bool
  | [] => true
  | (_, v) :: ms => v.sound && soundMembers ms

end

end Json

end ComputePlane
