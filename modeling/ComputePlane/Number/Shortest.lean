import ComputePlane.Number.Digits
import ComputePlane.Number.Binary

/-!
# The shortest decimal that reads back

Among the decimal fractions nearer to a binary number than to any other number of its format, the
one with the fewest digits; of several with equally few digits the nearest; of two equally near
ones the one with an even last digit.
-/

namespace ComputePlane.Number

/-- The fractions that read back as one number, as multiples of `1 / den`: from `low` to `high`
around `value`, with the two ends if `closed`. -/
structure Nearby where
  low : Nat
  value : Nat
  high : Nat
  den : Nat
  closed : Bool
  deriving DecidableEq, Repr

/-- What reads back as `coeff * 2 ^ exp`. The gap below a power of two is half the gap above. -/
def Format.nearby (f : Format) (coeff : Nat) (exp : Int) : Nearby :=
  let (scale, den) := if 0 ≤ exp - 2 then (twoTo (exp - 2).toNat, 1) else (1, twoTo (2 - exp).toNat)
  let below := if coeff = twoTo (f.precision - 1) ∧ f.minExp < exp then 1 else 2
  ⟨(4 * coeff - below) * scale, 4 * coeff * scale, (4 * coeff + 2) * scale, den, coeff % 2 = 0⟩

namespace Nearby

/-- A power of ten as a fraction. -/
def powerOfTen (q : Int) : Nat × Nat :=
  if 0 ≤ q then (tenTo q.toNat, 1) else (1, tenTo (-q).toNat)

/-- `m * 10 ^ q` reads back as the number. -/
def holds (i : Nearby) (m : Nat) (q : Int) : Bool :=
  let (s, t) := powerOfTen q
  let x := m * s * i.den
  (i.low * t < x || (i.closed && i.low * t == x)) &&
    (x < i.high * t || (i.closed && i.high * t == x))

/-- The multiple of `10 ^ q` nearest to the number, among its two neighbours that read back. -/
def onGrid (i : Nearby) (q : Int) : Option Nat :=
  let (s, t) := powerOfTen q
  let m := i.value * t / (i.den * s)
  match i.holds m q, i.holds (m + 1) q with
  | true, true =>
    let twice := 2 * i.value * t
    let middle := (2 * m + 1) * s * i.den
    if twice < middle ∨ (twice = middle ∧ m % 2 = 0) then some m else some (m + 1)
  | true, false => some m
  | false, true => some (m + 1)
  | false, false => none

/-- The exponent of the first digit: the largest `x` with `10 ^ x` at most the number. -/
def leadExponent (i : Nearby) : Int :=
  if i.den ≤ i.value then ((digits (i.value / i.den)).length : Int) - 1
  else -(((digits ((i.den + i.value - 1) / i.value - 1)).length : Int))

/-- The first of `count` grids, from the coarse one on, that has a point. -/
def firstPoint (i : Nearby) (lead : Int) : Nat → Nat → Option (Nat × Int)
  | 0, _ => none
  | count + 1, k =>
    let q := lead - k
    match i.onGrid q with
    | some m => some (m, q)
    | none => firstPoint i lead count (k + 1)

end Nearby

/-- A decimal fraction as its digits and the exponent of the first one. -/
structure Scientific where
  digits : List Nat
  exp : Int
  deriving DecidableEq, Repr

/-- Seventeen digits tell the numbers of the 64-bit format apart, nine those of the 32-bit one. -/
def mostDigits : Nat := 17

/-- The shortest decimal of a magnitude `coeff * 2 ^ exp`. -/
def Format.shortest (f : Format) (coeff : Nat) (exp : Int) : Scientific :=
  if coeff = 0 then ⟨[0], 0⟩
  else
    let i := f.nearby coeff exp
    let lead := i.leadExponent
    match i.firstPoint lead mostDigits 0 with
    | none => ⟨[0], 0⟩
    | some (m, q) =>
      let ds := digits m
      let kept := (ds.reverse.dropWhile (· == 0)).reverse
      ⟨kept, q + ds.length - 1⟩

end ComputePlane.Number
