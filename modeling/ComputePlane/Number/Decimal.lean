import ComputePlane.Number.Digits
import ComputePlane.Number.Binary

/-!
# Decimal fractions read as 64-bit numbers

A size may be written as a whole number or as a decimal fraction with an exponent. `double?` reads
the second form and rounds once, to the nearest 64-bit number.
-/

namespace ComputePlane.Number

/-- The number `coeff * 10 ^ exp`. -/
structure Decimal where
  negative : Bool
  coeff : Nat
  exp : Int
  deriving DecidableEq, Repr

namespace Decimal

/-- The magnitude as a fraction. -/
def fraction (d : Decimal) : Nat × Nat :=
  if 0 ≤ d.exp then (d.coeff * tenTo d.exp.toNat, 1) else (d.coeff, tenTo (-d.exp).toNat)

/-- The nearest 64-bit number. Magnitudes of `10 ^ 310` and more are beyond the largest one, those
below `10 ^ (-330)` nearer to zero than to the smallest one. -/
def toDouble (d : Decimal) : Binary :=
  let lead : Int := (digits d.coeff).length + d.exp
  if d.coeff = 0 then .finite d.negative 0 Format.double.minExp
  else if 310 < lead then .infinite d.negative
  else if lead < -330 then .finite d.negative 0 Format.double.minExp
  else let (n, m) := d.fraction; Format.double.round d.negative n m

end Decimal

/-- The exponent part: nothing, or `e` with an optional sign and at least one digit. -/
def exponentPart? : List Char → Option Int
  | [] => some 0
  | e :: cs =>
    if e = 'e' ∨ e = 'E' then
      match cs with
      | '+' :: ds => (ofDigitChars? ds).map Int.ofNat
      | '-' :: ds => (ofDigitChars? ds).map fun n => -Int.ofNat n
      | ds => (ofDigitChars? ds).map Int.ofNat
    else none

/-- Digits with at most one point among or beside them, and an optional exponent. -/
def decimalPart? (negative : Bool) (cs : List Char) : Option Decimal :=
  let (whole, rest) := takeDigits cs
  let (places, rest) := match rest with
    | '.' :: rest => takeDigits rest
    | rest => ([], rest)
  if whole.isEmpty && places.isEmpty then none
  else
    (exponentPart? rest).map fun e =>
      ⟨negative, ofDigits 10 (whole ++ places), e - places.length⟩

/-- A 64-bit number: a decimal fraction, or a name of infinity or of the undefined value. -/
def double? (s : String) : Option Binary :=
  let (negative, cs) := match s.toList with
    | '+' :: cs => (false, cs)
    | '-' :: cs => (true, cs)
    | cs => (false, cs)
  match (String.ofList cs).map Char.toLower with
  | "inf" => some (.infinite negative)
  | "infinity" => some (.infinite negative)
  | "nan" => some .undefined
  | _ => (decimalPart? negative cs).map Decimal.toDouble

end ComputePlane.Number
