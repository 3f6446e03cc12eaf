import ComputePlane.Text.Utf8

/-!
# Characters as 16-bit units

The encoding UTF-16. A character beyond the first 65536 is a pair of units, one of each half of the
surrogates. A half that stands alone is read as U+FFFD, and so is what is left at the end.
-/

namespace ComputePlane.Text.Utf16

/-- The first half of a surrogate pair. -/
def isLead (n : Nat) : Bool := 0xd800 ≤ n && n < 0xdc00

/-- The second half of a surrogate pair. -/
def isTrail (n : Nat) : Bool := 0xdc00 ≤ n && n < 0xe000

/-- The character of a surrogate pair. -/
def pair (n m : Nat) : Char :=
  Char.ofNat (0x10000 + (n - 0xd800) * 0x400 + (m - 0xdc00))

/-- The character of a unit that is in no pair. -/
def single (n : Nat) : Char :=
  if isLead n || isTrail n then Utf8.replacement else Char.ofNat n

inductive ByteOrder where
  | little
  | big
  deriving DecidableEq, Repr

/-- The unit of two bytes. -/
def ByteOrder.unit : ByteOrder → Nat → Nat → Nat
  | little, a, b => a + 0x100 * b
  | big, a, b => 0x100 * a + b

/-- The characters of bytes. -/
def scan (o : ByteOrder) : List Nat → List Char
  | a :: b :: c :: d :: rest =>
    let n := o.unit a b
    let m := o.unit c d
    if isLead n && isTrail m then pair n m :: scan o rest
    else single n :: scan o (c :: d :: rest)
  | [a, b, _] =>
    let n := o.unit a b
    -- the half of a pair and half a unit count as one thing that is left
    if isLead n then [Utf8.replacement] else [single n, Utf8.replacement]
  | [a, b] => [single (o.unit a b)]
  | [_] => [Utf8.replacement]
  | [] => []

end ComputePlane.Text.Utf16
