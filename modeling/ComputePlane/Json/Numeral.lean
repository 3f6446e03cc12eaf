import ComputePlane.Json.Basic
import ComputePlane.Number.Digits
import ComputePlane.Number.Binary
import ComputePlane.Number.Shortest

/-!
# The values of JSON numbers

A number without point and exponent that fits 64 bits is an integer. Every other number is read in
two roundings: its leading digits, as many as fit 64 bits, become a 64-bit floating-point number,
which is then multiplied or divided by a power of ten. In the other direction a 32-bit number is
written as its shortest decimal.
-/

namespace ComputePlane.Json.Numeral

open ComputePlane.Number

/-! ## Reading -/

def topPower : Nat := 308

/-- The 64-bit number nearest to a power of ten. -/
def powerOfTen (n : Nat) : Binary :=
  Format.double.ofNat (tenTo n)

/-- The product of two finite 64-bit numbers, rounded once. -/
def product : Binary → Binary → Binary
  | .finite neg₁ c₁ e₁, .finite neg₂ c₂ e₂ =>
    let (n, d) := Binary.fraction (c₁ * c₂) (e₁ + e₂)
    Format.double.round (neg₁ != neg₂) n d
  | _, _ => .undefined

/-- The quotient of two finite 64-bit numbers, rounded once. -/
def quotient : Binary → Binary → Binary
  | .finite neg₁ c₁ e₁, .finite neg₂ c₂ e₂ =>
    let (n₁, d₁) := Binary.fraction c₁ e₁
    let (n₂, d₂) := Binary.fraction c₂ e₂
    Format.double.round (neg₁ != neg₂) (n₁ * d₂) (d₁ * n₂)
  | _, _ => .undefined

/-- Some number other than zero and infinity. -/
def isZero : Binary → Bool
  | .finite _ 0 _ => true
  | _ => false

/-- Not beyond the largest number. -/
def inRange : Binary → Option Binary
  | .infinite _ => none
  | x => some x

/-- A number divided by `10 ^ n`, in steps of at most the largest power of ten. After three full
steps every 64-bit significand has become zero. -/
def shrink (x : Binary) (n : Nat) : Nat → Binary
  | 0 => x
  | steps + 1 =>
    if n ≤ topPower then quotient x (powerOfTen n)
    else if isZero x then x
    else shrink (quotient x (powerOfTen topPower)) (n - topPower) steps

/-- A number times `10 ^ exp`, unless that is beyond the largest number. -/
def scaled (x : Binary) (exp : Int) : Option Binary :=
  if exp < 0 then some (shrink x (-exp).toNat 4)
  else if exp.toNat ≤ topPower then inRange (product x (powerOfTen exp.toNat))
  else if isZero x then some x
  else none

/-- The leading digits that fit 64 bits after `n`, and how many are left over. -/
def absorb (n : Nat) : List Nat → Nat × List Nat
  | [] => (n, [])
  | d :: ds => if 10 * n + d < twoTo 64 then absorb (10 * n + d) ds else (n, d :: ds)

/-- The magnitude as a 64-bit number. A whole digit left over counts as a power of ten, a digit of
the fraction left over as nothing. -/
def magnitude? (x : Numeral) : Option Binary :=
  let (n, left) := absorb 0 x.whole
  let (n, unread) := absorb n x.fraction
  let places : Int := x.fraction.length - unread.length
  scaled (Format.double.ofNat n) (left.length - places + x.exponent.getD 0)

/-- The value of a number: an integer of 64 bits, or a 64-bit floating-point number. -/
inductive Value where
  | integer (n : Int)
  | real (x : Binary)
  deriving DecidableEq, Repr

/-- An integer: no point, no exponent, in the range of 64 bits. A negative zero is none. -/
def integer? (x : Numeral) : Option Int :=
  let n := ofDigits 10 x.whole
  if x.fraction ≠ [] ∨ x.exponent ≠ none then none
  else if x.negative then (if 0 < n ∧ n ≤ twoTo 63 then some (-n) else none)
  else if n < twoTo 64 then some n
  else none

/-- The value of a number, unless it is beyond the largest 64-bit number. -/
def value? (x : Numeral) : Option Value :=
  match x.integer? with
  | some n => some (.integer n)
  | none =>
    x.magnitude?.map fun m => .real <|
      match m with
      | .finite _ c e => .finite x.negative c e
      | m => m

/-- The nearest 32-bit number; an integer is rounded once. -/
def Value.single : Value → Single
  | .integer n => Format.single.ofInt n
  | .real x => x.convert .single

/-! ## Writing -/

def ofNat (n : Nat) : Numeral := .natural (digits n)

/-- Where positional notation ends: the exponents of the first digit it is used for. -/
def positional : Int × Int := (-6, 12)

/-- A decimal, positional for the exponents of `positional` and always with a point there;
otherwise with one digit before the point and an exponent. -/
def ofScientific (negative : Bool) (s : Scientific) : Numeral :=
  if positional.1 ≤ s.exp ∧ s.exp ≤ positional.2 then
    if s.exp < 0 then ⟨negative, [0], List.replicate (-s.exp - 1).toNat 0 ++ s.digits, none⟩
    else
      let places := s.exp.toNat + 1
      if s.digits.length ≤ places then
        ⟨negative, s.digits ++ List.replicate (places - s.digits.length) 0, [0], none⟩
      else ⟨negative, s.digits.take places, s.digits.drop places, none⟩
  else ⟨negative, s.digits.take 1, s.digits.drop 1, some s.exp⟩

/-- A 32-bit number as its shortest decimal; infinity and the undefined value have none. -/
def ofSingle? : Single → Option Numeral
  | .finite neg c e => some (ofScientific neg (Format.single.shortest c e))
  | _ => none

end ComputePlane.Json.Numeral
