/-!
# Base64

Bytes in printable characters: three bytes in four characters of six bits each, the last group
filled up with equals signs.
-/

namespace ComputePlane.Text.Base64

/-- The 64 characters in the order of their values. -/
def alphabet : List Char :=
  "ABCDEFGHIJKLMNOPQRSTUVWXYZabcdefghijklmnopqrstuvwxyz0123456789+/".toList

/-- The character of six bits. -/
def letter (n : Nat) : Char :=
  alphabet.getD (n % 64) '='

/-- The characters of bytes. -/
def encodeBytes : List Nat → List Char
  | a :: b :: c :: rest =>
    letter (a / 4) :: letter (a * 16 + b / 16) :: letter (b * 4 + c / 64) :: letter c ::
      encodeBytes rest
  | [a, b] => [letter (a / 4), letter (a * 16 + b / 16), letter (b * 4), '=']
  | [a] => [letter (a / 4), letter (a * 16), '=', '=']
  | [] => []

/-- The text of bytes. -/
def encode (bytes : List Nat) : String :=
  String.ofList (encodeBytes bytes)

end ComputePlane.Text.Base64
