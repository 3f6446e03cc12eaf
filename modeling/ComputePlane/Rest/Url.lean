import ComputePlane.Text.Basic
import ComputePlane.Text.Utf8

/-!
# URLs

A URL as it is requested once its text has been read. A backslash counts as a slash, segments of one
or two dots are resolved, a question mark starts the query, and what follows a hash mark is dropped.
Characters that cannot stand in a part are written with percent signs; percent signs already there
stay.
-/

namespace ComputePlane.Rest

open Text

/-! ## Percent signs -/

/-- A byte with a percent sign. -/
def escapedByte (b : Nat) : List Char :=
  ['%', (Nat.digitChar (b / 16)).toUpper, (Nat.digitChar (b % 16)).toUpper]

/-- Characters with those escaped that are not plain. -/
def escaped (isPlain : Char → Bool) (cs : List Char) : String :=
  String.ofList (cs.flatMap fun c =>
    if isPlain c then [c] else (Utf8.encodeChar c).flatMap escapedByte)

/-- A visible ASCII character other than those of `marks`. -/
def isPlainBut (marks : String) (c : Char) : Bool :=
  0x20 < c.toNat && c.toNat < 0x7f && !marks.toList.contains c

/-- A character that stands for itself in a path. -/
def isPathChar : Char → Bool := isPlainBut "\"#<>?`\x7b\x7d"

/-- A character that stands for itself in a query. -/
def isQueryChar : Char → Bool := isPlainBut "\"#<>'"

/-! ## Paths -/

/-- The number of dots that characters are, if they are nothing else. A dot may be escaped. -/
def dots? : List Char → Option Nat
  | [] => some 0
  | '.' :: cs => (dots? cs).map (· + 1)
  | '%' :: '2' :: 'e' :: cs => (dots? cs).map (· + 1)
  | '%' :: '2' :: 'E' :: cs => (dots? cs).map (· + 1)
  | _ => none

/-- The segments after those of `done`. One dot stays where it is and two go back by one; at the end
they leave an empty segment. -/
def resolve (done : List String) : List (List Char) → List String
  | [] => done
  | [s] =>
    match dots? s with
    | some 1 => done ++ [""]
    | some 2 => done.dropLast ++ [""]
    | _ => done ++ [escaped isPathChar s]
  | s :: rest =>
    match dots? s with
    | some 1 => resolve done rest
    | some 2 => resolve done.dropLast rest
    | _ => resolve (done ++ [escaped isPathChar s]) rest

def segmentsOf (path : List Char) : List String :=
  let cs := path.map fun c => if c = '\\' then '/' else c
  match cs with
  | '/' :: rest => resolve [] (pieces '/' rest)
  | cs => resolve [] (pieces '/' cs)

/-! ## The whole -/

/-- A URL: the scheme and the host with a port, the segments of its path, and its query. -/
structure Url where
  origin : String
  segments : List String
  query : Option String
  deriving DecidableEq, Repr

namespace Url

/-- A character that is dropped wherever it stands. -/
def isBreak (c : Char) : Bool := c = '\t' || c = '\n' || c = '\r'

/-- A character that is dropped at the two ends. -/
def isControl (c : Char) : Bool := c.toNat ≤ 0x20

/-- The characters that a URL is read from. -/
def significant (s : String) : List Char :=
  ((s.toList.dropWhile isControl).reverse.dropWhile isControl).reverse.filter (!isBreak ·)

def isSlash (c : Char) : Bool := c = '/' || c = '\\'

/-- A character that the host cannot hold. -/
def endsHost (c : Char) : Bool := isSlash c || c = '?' || c = '#'

/-- The URL with the parts that follow its origin. -/
def ofParts (origin : String) (cs : List Char) : Url :=
  let cs := cs.takeWhile (· ≠ '#')
  let path := cs.takeWhile (· ≠ '?')
  ⟨origin, segmentsOf path,
    match cs.drop path.length with
    | _ :: query => some (escaped isQueryChar query)
    | [] => none⟩

/-- The URL of a text, if its scheme is one of the web and it names a host. -/
def ofText? (s : String) : Option Url :=
  match cutChars ':' (significant s) with
  | none => none
  | some (scheme, rest) =>
    let scheme := lower (String.ofList scheme)
    let rest := rest.dropWhile isSlash
    let host := rest.takeWhile (!endsHost ·)
    if (scheme = "http" ∨ scheme = "https") ∧ host ≠ [] then
      some (ofParts (scheme ++ "://" ++ String.ofList host) (rest.drop host.length))
    else none

def target (u : Url) : String :=
  "/" ++ "/".intercalate u.segments ++ (u.query.map ("?" ++ ·)).getD ""

/-- The URL with a parameter at the end of its query. -/
def withParameter (u : Url) (name value : String) : Url :=
  let parameter := name ++ "=" ++ value
  { u with query := some (
      match u.query.filter (· ≠ "") with
      | some query => query ++ "&" ++ parameter
      | none => parameter) }

end Url

end ComputePlane.Rest
