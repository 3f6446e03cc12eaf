import ComputePlane.Number.Digits

/-!
# Internet addresses

Texts of addresses of both versions, with and without a port. A part of an address of version 4 has
no leading zeros; one of version 6 may end in an address of version 4 and may leave out one run of
zeros. What is written leaves out the first of the longest runs of at least two zeros.
-/

namespace ComputePlane

open Number

/-- An address: four numbers of 8 bits or eight of 16 bits. -/
inductive IpAddress where
  | v4 (octets : List Nat)
  | v6 (groups : List Nat)
  deriving DecidableEq, Repr

namespace IpAddress

/-! ## Reading -/

/-- The digits of a base at the front of the characters. -/
def baseDigits (base : Nat) : List Char → List Nat × List Char
  | [] => ([], [])
  | c :: cs =>
    match hexDigit? c with
    | some d =>
      if d < base then let (ds, rest) := baseDigits base cs; (d :: ds, rest) else ([], c :: cs)
    | none => ([], c :: cs)

/-- A part of an address of version 4. -/
def octet? (cs : List Char) : Option (Nat × List Char) :=
  match baseDigits 10 cs with
  | ([], _) => none
  | (0 :: _ :: _, _) => none
  | (ds, rest) => if ds.length ≤ 3 ∧ ofDigits 10 ds < 256 then some (ofDigits 10 ds, rest) else none

/-- A part of an address of version 6. -/
def group? (cs : List Char) : Option (Nat × List Char) :=
  match baseDigits 16 cs with
  | ([], _) => none
  | (ds, rest) => if ds.length ≤ 4 then some (ofDigits 16 ds, rest) else none

/-- What follows the character `c`. -/
def after? (c : Char) : List Char → Option (List Char)
  | [] => none
  | d :: cs => if d = c then some cs else none

/-- The four parts of an address of version 4. -/
def octets? (cs : List Char) : Option (List Nat × List Char) := do
  let (a, cs) ← octet? cs
  let (b, cs) ← octet? (← after? '.' cs)
  let (c, cs) ← octet? (← after? '.' cs)
  let (d, cs) ← octet? (← after? '.' cs)
  return ([a, b, c, d], cs)

/-- Four numbers of 8 bits as two of 16 bits. -/
def paired : List Nat → List Nat
  | [a, b, c, d] => [256 * a + b, 256 * c + d]
  | _ => []

/-- Up to `room` parts, and whether an address of version 4 ends them. A colon stands before each
part but the `first`. -/
def groups (room : Nat) (first : Bool) (cs : List Char) : List Nat × Bool × List Char :=
  match room with
  | 0 => ([], false, cs)
  | room + 1 =>
    match if first then some cs else after? ':' cs with
    | none => ([], false, cs)
    | some cs' =>
      match if 0 < room then octets? cs' else none with
      | some (os, rest) => (paired os, true, rest)
      | none =>
        match group? cs' with
        | none => ([], false, cs)
        | some (g, rest) =>
          let (gs, ended, rest) := groups room false rest
          (g :: gs, ended, rest)

/-- The eight parts of an address of version 6. -/
def eightGroups? (cs : List Char) : Option (List Nat × List Char) :=
  let (head, ended, rest) := groups 8 true cs
  if head.length = 8 then some (head, rest)
  else if ended then none
  else do
    let rest ← after? ':' (← after? ':' rest)
    let (tail, _, rest) := groups (7 - head.length) true rest
    return (head ++ List.replicate (8 - head.length - tail.length) 0 ++ tail, rest)

def parse? (s : String) : Option IpAddress :=
  let whole (p : Option (IpAddress × List Char)) : Option IpAddress :=
    match p with
    | some (a, []) => some a
    | _ => none
  match whole ((octets? s.toList).map fun p => (v4 p.1, p.2)) with
  | some a => some a
  | none => whole ((eightGroups? s.toList).map fun p => (v6 p.1, p.2))

/-! ## Writing -/

/-- A run of zeros: where it starts and how long it is. -/
structure Run where
  start : Nat
  length : Nat
  deriving DecidableEq, Repr

/-- The longest run of zeros, of equally long ones the first. `here` is the run that ends before the
position. -/
def longestRun (best here : Run) (position : Nat) : List Nat → Run
  | [] => best
  | g :: gs =>
    if g = 0 then
      let here := if here.length = 0 then ⟨position, 1⟩ else ⟨here.start, here.length + 1⟩
      longestRun (if best.length < here.length then here else best) here (position + 1) gs
    else longestRun best ⟨0, 0⟩ (position + 1) gs

/-- Texts with `sep` between them. -/
def joined (sep : String) (parts : List String) : String :=
  sep.intercalate parts

/-- Numbers of 16 bits in hexadecimal digits, colons between them. -/
def hexGroups (gs : List Nat) : String :=
  joined ":" (gs.map fun g => String.ofList (Nat.toDigits 16 g))

/-- The text of four numbers of 8 bits. -/
def octetsText (os : List Nat) : String :=
  joined "." (os.map decimal)

def text : IpAddress → String
  | v4 os => octetsText os
  | v6 [0, 0, 0, 0, 0, 0xffff, a, b] =>
    "::ffff:" ++ octetsText [a / 256, a % 256, b / 256, b % 256]
  | v6 gs =>
    let run := longestRun ⟨0, 0⟩ ⟨0, 0⟩ 0 gs
    if 1 < run.length then
      hexGroups (gs.take run.start) ++ "::" ++ hexGroups (gs.drop (run.start + run.length))
    else hexGroups gs

/-! ## Ranges -/

/-- An address that is not reached from the whole network: one of a private or local range. -/
def isPrivate : IpAddress → Bool
  | v4 (a :: b :: _) =>
    a = 10 || (a = 172 && 16 ≤ b && b ≤ 31) || (a = 192 && b = 168) || a = 127 ||
      (a = 169 && b = 254)
  | v4 _ => false
  | v6 gs => gs = [0, 0, 0, 0, 0, 0, 0, 1] || (0xfc00 ≤ gs.headD 0 && gs.headD 0 < 0xfe00)

end IpAddress

/-! ## Addresses with a port -/

/-- An address to listen on. The zone is one of an address of version 6; zero is none. -/
structure SocketAddress where
  ip : IpAddress
  zone : Nat
  port : Nat
  deriving DecidableEq, Repr

namespace SocketAddress

open IpAddress

/-- A number below `bound`. -/
def number? (bound : Nat) (cs : List Char) : Option (Nat × List Char) :=
  match takeDigits cs with
  | ([], _) => none
  | (ds, rest) => if ofDigits 10 ds < bound then some (ofDigits 10 ds, rest) else none

/-- A port behind a colon, and nothing after it. -/
def port? (cs : List Char) : Option Nat := do
  let (port, rest) ← number? (twoTo 16) (← after? ':' cs)
  if rest.isEmpty then return port else none

/-- A zone behind a percent sign, if there is one. -/
def scanZone (cs : List Char) : Nat × List Char :=
  match (after? '%' cs).bind (number? (twoTo 32)) with
  | some p => p
  | none => (0, cs)

/-- The address that a text names: `a.b.c.d:port` or `[address]:port`. -/
def parse? (s : String) : Option SocketAddress :=
  match octets? s.toList with
  | some (os, rest) => (port? rest).map fun port => ⟨v4 os, 0, port⟩
  | none => do
    let (gs, rest) ← eightGroups? (← after? '[' s.toList)
    let (zone, rest) := scanZone rest
    let port ← port? (← after? ']' rest)
    return ⟨v6 gs, zone, port⟩

/-- The text of an address with a port. -/
def text (a : SocketAddress) : String :=
  match a.ip with
  | v4 os => octetsText os ++ ":" ++ decimal a.port
  | v6 gs =>
    let zone := if a.zone = 0 then "" else "%" ++ decimal a.zone
    "[" ++ (v6 gs).text ++ zone ++ "]:" ++ decimal a.port

end SocketAddress

end ComputePlane
