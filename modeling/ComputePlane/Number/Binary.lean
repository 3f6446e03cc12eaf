import ComputePlane.Number.Power

/-!
# Binary floating-point numbers

Numbers `coeff * 2 ^ exp` with a bounded coefficient and a bounded exponent, the two infinities and
the value of undefined operations. All arithmetic is exact arithmetic on integers followed by one
rounding to the nearest number of the format, of two equally near ones the one with an even
coefficient.
-/

namespace ComputePlane.Number

/-- A binary format: coefficients below `2 ^ precision`, exponents from `minExp` to `maxExp`. -/
structure Format where
  precision : Nat
  minExp : Int
  maxExp : Int
  deriving DecidableEq, Repr

def Format.single : Format := ⟨24, -149, 104⟩

def Format.double : Format := ⟨53, -1074, 971⟩

/-- A binary floating-point number of any format. Zero has a sign. -/
inductive Binary where
  | finite (negative : Bool) (coeff : Nat) (exp : Int)
  | infinite (negative : Bool)
  | undefined
  deriving DecidableEq, Repr

def bitLength (n : Nat) : Nat :=
  if n = 0 then 0 else Nat.log2 n + 1

/-- The nearest integer to `num / den`; of two equally near ones the even one. -/
def divNearestEven (num den : Nat) : Nat :=
  let q := num / den
  let r := num % den
  if den < 2 * r then q + 1
  else if 2 * r = den then q + q % 2
  else q

/-- The quotient `num / (den * 2 ^ exp)` as a fraction of natural numbers. -/
def scaleDown (num den : Nat) (exp : Int) : Nat × Nat :=
  if 0 ≤ exp then (num, den * twoTo exp.toNat) else (num * twoTo (-exp).toNat, den)

/-- The exponent of the format's numbers around `num / den`. -/
def Format.exponentFor (f : Format) (num den : Nat) : Int :=
  let low : Int := (bitLength num : Int) - bitLength den - f.precision
  let (n, d) := scaleDown num den low
  let e := if n / d < twoTo f.precision then low else low + 1
  max e f.minExp

/-- The number of the format nearest to `num / den`; beyond the largest one, infinity. -/
def Format.round (f : Format) (negative : Bool) (num den : Nat) : Binary :=
  if num = 0 then .finite negative 0 f.minExp
  else
    let e := f.exponentFor num den
    let (n, d) := scaleDown num den e
    let c := divNearestEven n d
    let (c, e) := if c = twoTo f.precision then (c / 2, e + 1) else (c, e)
    if f.maxExp < e then .infinite negative else .finite negative c e

/-- The number of the format nearest to a natural number. -/
def Format.ofNat (f : Format) (n : Nat) : Binary :=
  f.round false n 1

/-- The number of the format nearest to an integer. -/
def Format.ofInt (f : Format) (n : Int) : Binary :=
  f.round (n < 0) n.natAbs 1

namespace Binary

/-- The magnitude of a finite number as a fraction. -/
def fraction (coeff : Nat) (exp : Int) : Nat × Nat :=
  if 0 ≤ exp then (coeff * twoTo exp.toNat, 1) else (coeff, twoTo (-exp).toNat)

/-- The same number in another format, rounded where it does not fit. -/
def convert (f : Format) : Binary → Binary
  | .finite neg c e => let (n, d) := fraction c e; f.round neg n d
  | .infinite neg => .infinite neg
  | .undefined => .undefined

/-- The sum, rounded once. A sum of zero is negative only if both terms are. -/
def add (f : Format) : Binary → Binary → Binary
  | .finite neg₁ c₁ e₁, .finite neg₂ c₂ e₂ =>
    let e := min e₁ e₂
    let m₁ : Int := (c₁ * twoTo (e₁ - e).toNat : Nat)
    let m₂ : Int := (c₂ * twoTo (e₂ - e).toNat : Nat)
    let sum := (if neg₁ then -m₁ else m₁) + (if neg₂ then -m₂ else m₂)
    if sum = 0 then .finite (neg₁ && neg₂) 0 f.minExp
    else let (n, d) := fraction sum.natAbs e; f.round (sum < 0) n d
  | .infinite neg₁, .infinite neg₂ => if neg₁ = neg₂ then .infinite neg₁ else .undefined
  | .infinite neg, .finite .. => .infinite neg
  | .finite .., .infinite neg => .infinite neg
  | .undefined, _ => .undefined
  | _, .undefined => .undefined

/-- The sum of a list from left to right, each partial sum rounded. -/
def sum (f : Format) (xs : List Binary) : Binary :=
  xs.foldl (add f) (.finite false 0 f.minExp)

/-- The nearest integer from `0` to `bound`, a half away from zero; the undefined value is `0`. -/
def toBoundedNat (bound : Nat) : Binary → Nat
  | .finite true _ _ => 0
  | .finite false c e => let (n, d) := fraction c e; min bound ((2 * n + d) / (2 * d))
  | .infinite neg => if neg then 0 else bound
  | .undefined => 0

/-- A natural number no larger than `bound`, if the value is one. -/
def exactNat? (bound : Nat) : Binary → Option Nat
  | .finite neg c e =>
    let (n, d) := fraction c e
    if n % d = 0 ∧ n / d ≤ bound ∧ (neg = false ∨ n = 0) then some (n / d) else none
  | .infinite _ => none
  | .undefined => none

/-- The bit pattern: sign, exponent field, and the coefficient below its leading bit. -/
def bitPattern (f : Format) (width : Nat) : Binary → Nat
  | .finite neg c e =>
    let lead := twoTo (f.precision - 1)
    let field := if c < lead then 0 else (e - f.minExp + 1).toNat
    sign neg + field * lead + c % lead
  | .infinite neg => sign neg + top
  | .undefined => top + twoTo (f.precision - 2)
where
  sign (neg : Bool) : Nat := if neg then twoTo (width - 1) else 0
  top : Nat := (twoTo (width - f.precision) - 1) * twoTo (f.precision - 1)

end Binary

/-! ## The 32-bit format -/

/-- A number of the 32-bit format. -/
abbrev Single := Binary

def singleOfNat (n : Nat) : Single :=
  Format.single.ofNat n

def singleBits (x : Single) : Nat :=
  x.bitPattern .single 32

end ComputePlane.Number
