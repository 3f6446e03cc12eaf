import ComputePlane.Text.Basic

/-!
# Media types

The types of bodies, as in `application/vnd.api+json; charset=utf-8`. Parameters have to be well
formed, each a name with a value.
-/

namespace ComputePlane

namespace MediaType

/-! ## Parts -/

/-- A character of a name: a letter, a digit or one of certain marks. -/
def isTokenChar (c : Char) : Bool :=
  c.isAlphanum || "!#$%&'*+-.^_`|~".toList.contains c

/-- A character between quotes. -/
def isQuotedChar (c : Char) : Bool :=
  31 < c.toNat && c.toNat ≠ 127

/-- What follows a quoted value: blanks, then nothing or the next parameter. -/
def afterQuoted? (cs : List Char) : Option (List Char) :=
  match cs.dropWhile (· = ' ') with
  | [] => some []
  | ';' :: rest => some rest
  | _ => none

/-- The value of a parameter, and what follows it. -/
def value? (cs : List Char) : Option (List Char × List Char) :=
  match cs with
  | '"' :: rest =>
    let value := rest.takeWhile fun c => c ≠ '"' && isQuotedChar c
    match rest.drop value.length with
    | '"' :: after => (afterQuoted? after).map (value, ·)
    | _ => none
  | cs =>
    let value := cs.takeWhile isTokenChar
    match cs.drop value.length with
    | [] => some (value, [])
    | ';' :: rest => if value.isEmpty then none else some (value, rest)
    | _ => none

/-- Parameters, each a name, an equals sign and a value, with at most `count` parts to read. Blanks
may stand before a name. -/
def parameters? : Nat → List Char → Option (List (String × String))
  | 0, _ => none
  | _ + 1, [] => some []
  | count + 1, ' ' :: cs => parameters? count cs
  | count + 1, cs => do
    let name := cs.takeWhile isTokenChar
    match cs.drop name.length with
    | '=' :: rest =>
      if name.isEmpty then none
      else
        let (value, rest) ← value? rest
        let more ← parameters? count rest
        return (String.ofList name, String.ofList value) :: more
    | _ => none

end MediaType

/-! ## Types -/

/-- A media type, in small letters throughout. -/
structure MediaType where
  type : String
  subtype : String
  parameters : List (String × String)
  deriving DecidableEq, Repr

namespace MediaType

/-- The media type of a text. Its parameters start at a semicolon or a blank. -/
def ofText? (s : String) : Option MediaType :=
  let cs := (Text.lower s).toList
  let type := cs.takeWhile isTokenChar
  match cs.drop type.length with
  | '/' :: rest =>
    let subtype := rest.takeWhile isTokenChar
    let result (ps : List (String × String)) : MediaType :=
      ⟨String.ofList type, String.ofList subtype, ps⟩
    match rest.drop subtype.length with
    | [] => if type.isEmpty then none else some (result [])
    | c :: cs =>
      if !type.isEmpty && !subtype.isEmpty && (c = ';' || c = ' ') then
        (parameters? (cs.length + 1) cs).map result
      else none
  | _ => none

/-- A body of the type is JSON: the subtype says so before its last plus sign or after it. A plus
sign in front of the whole subtype is a letter of its name. -/
def isJson (m : MediaType) : Bool :=
  m.type = "application" &&
    match Text.beforeLast '+' m.subtype with
    | none => m.subtype = "json"
    | some before => before ≠ "" && (before = "json" || m.subtype = before ++ "+json")

def parameter? (m : MediaType) (name : String) : Option String :=
  m.parameters.lookup name

end MediaType

end ComputePlane
