import ComputePlane.Number.Power

/-!
# Decimal digits

Numbers as lists of decimal digits, most significant first, and the unsigned readings that ids,
settings and addresses use.
-/

namespace ComputePlane.Number

/-- The value of an ASCII digit. -/
def digit? (c : Char) : Option Nat :=
  if '0' ≤ c ∧ c ≤ '9' then some (c.toNat - '0'.toNat) else none

def isDigit (c : Char) : Bool :=
  (digit? c).isSome

/-- The value of an ASCII hexadecimal digit. -/
def hexDigit? (c : Char) : Option Nat :=
  if '0' ≤ c ∧ c ≤ '9' then some (c.toNat - '0'.toNat)
  else if 'a' ≤ c ∧ c ≤ 'f' then some (c.toNat - 'a'.toNat + 10)
  else if 'A' ≤ c ∧ c ≤ 'F' then some (c.toNat - 'A'.toNat + 10)
  else none

/-- The number that digits write in the given base. -/
def ofDigits (base : Nat) (ds : List Nat) : Nat :=
  ds.foldl (fun n d => base * n + d) 0

/-- The digits at the front of the characters, and what follows them. -/
def takeDigits : List Char → List Nat × List Char
  | [] => ([], [])
  | c :: cs =>
    match digit? c with
    | some d => let (ds, rest) := takeDigits cs; (d :: ds, rest)
    | none => ([], c :: cs)

def digits (n : Nat) : List Nat :=
  (Nat.toDigits 10 n).filterMap digit?

def digitChar (d : Nat) : Char :=
  Char.ofNat ('0'.toNat + d)

def decimal (n : Nat) : String :=
  String.ofList (Nat.toDigits 10 n)

/-- Characters that are digits and nothing else, read as a number. -/
def ofDigitChars? (cs : List Char) : Option Nat :=
  match takeDigits cs with
  | ([], _) => none
  | (ds, []) => some (ofDigits 10 ds)
  | (_, _ :: _) => none

/-- A number below `bound` in decimal digits; one plus sign may stand before them. -/
def unsigned? (bound : Nat) (s : String) : Option Nat :=
  let n := match s.toList with
    | '+' :: cs => ofDigitChars? cs
    | cs => ofDigitChars? cs
  n.filter (· < bound)

def word32? (s : String) : Option Nat :=
  unsigned? (twoTo 32) s

def word64? (s : String) : Option Nat :=
  unsigned? (twoTo 64) s

end ComputePlane.Number
