import ComputePlane.Number.Digits
import ComputePlane.Text.Basic
import ComputePlane.Text.Utf8

/-!
# Paths and queries

The parts of a request's target. A percent sign with two hexadecimal digits stands for a byte, any
other percent sign for itself.
-/

namespace ComputePlane.Gateway

open Number Text

/-! ## Percent signs -/

/-- The bytes that characters stand for. -/
def percentDecoded : List Char → List Nat
  | [] => []
  | '%' :: a :: b :: cs =>
    match hexDigit? a, hexDigit? b with
    | some x, some y => (16 * x + y) :: percentDecoded cs
    | _, _ => Utf8.encodeChar '%' ++ percentDecoded (a :: b :: cs)
  | c :: cs => Utf8.encodeChar c ++ percentDecoded cs

/-! ## Targets -/

/-- The path of a target, and its query if it has one. -/
structure Target where
  path : String
  query : Option String
  deriving DecidableEq, Repr

/-- The parts of a target. What follows a hash mark does not count. -/
def Target.ofText (uri : String) : Target :=
  let uri := ((cut '#' uri).map (·.1)).getD uri
  match cut '?' uri with
  | some (path, query) => ⟨path, some query⟩
  | none => ⟨uri, none⟩

/-- The segments of a path that starts with a slash. -/
def segments? (path : String) : Option (List String) :=
  match split '/' path with
  | "" :: rest => some rest
  | _ => none

/-- The text of a segment, unless its bytes are none. -/
def segmentText? (segment : String) : Option String :=
  Utf8.strict? (percentDecoded segment.toList)

/-! ## Queries -/

/-- The text of a name or value in a query, in which a plus sign stands for a blank. -/
def queryText (s : String) : String :=
  Utf8.lossy (percentDecoded (s.toList.map fun c => if c = '+' then ' ' else c))

/-- The names and values of a query. -/
def queryPairs (query : String) : List (String × String) :=
  ((split '&' query).filter (· ≠ "")).map fun part =>
    match cut '=' part with
    | some (name, value) => (queryText name, queryText value)
    | none => (queryText part, "")

end ComputePlane.Gateway
