/-!
# Powers and sums

The powers that bounds and number formats are made of, and the sum of a list.
-/

namespace ComputePlane.Number

/-- A power of two: how many numbers have at most `n` binary digits. -/
def twoTo (n : Nat) : Nat :=
  Nat.pow 2 n

/-- A power of ten: how many numbers have at most `n` decimal digits. -/
def tenTo (n : Nat) : Nat :=
  Nat.pow 10 n

def total (ns : List Nat) : Nat :=
  ns.foldr (· + ·) 0

end ComputePlane.Number
