import ComputePlane.Json.Numeral

/-!
# Writing JSON

Compact texts: no blank characters, members in order, and in strings only quotes, backslashes and
control characters escaped.
-/

namespace ComputePlane.Json

open ComputePlane.Number

def digitChars (ds : List Nat) : List Char :=
  ds.map digitChar

def exponentChars (e : Int) : List Char :=
  'e' :: (if e < 0 then '-' else '+') :: digitChars (digits e.natAbs)

def Numeral.chars (x : Numeral) : List Char :=
  (if x.negative then ['-'] else []) ++ digitChars x.whole ++
    (if x.fraction = [] then [] else '.' :: digitChars x.fraction) ++
    (x.exponent.map exponentChars).getD []

/-- A control character without a short escape: four hexadecimal digits. -/
def controlChars (n : Nat) : List Char :=
  ['\\', 'u', '0', '0', Nat.digitChar (n / 16), Nat.digitChar (n % 16)]

/-- A character of a string. -/
def stringChar (c : Char) : List Char :=
  match c with
  | '"' => ['\\', '"']
  | '\\' => ['\\', '\\']
  | '\x08' => ['\\', 'b']
  | '\x0c' => ['\\', 'f']
  | '\n' => ['\\', 'n']
  | '\r' => ['\\', 'r']
  | '\t' => ['\\', 't']
  | _ => if c.toNat < 0x20 then controlChars c.toNat else [c]

/-- A string between its quotes. -/
def stringChars (s : String) : List Char :=
  '"' :: s.toList.flatMap stringChar ++ ['"']

mutual

/-- The compact text of a tree. -/
def chars : Json → List Char
  | .null => ['n', 'u', 'l', 'l']
  | .bool true => ['t', 'r', 'u', 'e']
  | .bool false => ['f', 'a', 'l', 's', 'e']
  | .number x => x.chars
  | .string s => stringChars (s.getD "")
  | .array [] => ['[', ']']
  | .array (v :: vs) => '[' :: v.chars ++ laterItems vs ++ [']']
  | .object [] => ['\x7b', '\x7d']
  | .object ((k, v) :: ms) =>
    '\x7b' :: stringChars (k.getD "") ++ ':' :: v.chars ++ laterMembers ms ++ ['\x7d']
  | .fault => []

/-- Items after the first one, each behind a comma. -/
def laterItems : List Json → List Char
  | [] => []
  | v :: vs => ',' :: v.chars ++ laterItems vs

/-- Members after the first one, each behind a comma. -/
def laterMembers : List (Option String × Json) → List Char
  | [] => []
  | (k, v) :: ms => ',' :: stringChars (k.getD "") ++ ':' :: v.chars ++ laterMembers ms

end

/-- The compact text of a tree. -/
def render (v : Json) : String :=
  String.ofList v.chars

end ComputePlane.Json
