/-!
# Characters as bytes

The encoding UTF-8, read in two ways: strictly, or with U+FFFD in the place of each part that is no
character. Such a part is as long as it could still have become one.
-/

namespace ComputePlane.Text.Utf8

/-! ## Writing -/

/-- A byte that goes on with a character: six bits of it. -/
def tail (n : Nat) : Nat := 0x80 + n % 64

def encodeChar (c : Char) : List Nat :=
  let n := c.toNat
  if n < 0x80 then [n]
  else if n < 0x800 then [0xc0 + n / 64, tail n]
  else if n < 0x10000 then [0xe0 + n / 64 / 64, tail (n / 64), tail n]
  else [0xf0 + n / 64 / 64 / 64, tail (n / 64 / 64), tail (n / 64), tail n]

def encode (cs : List Char) : List Nat :=
  cs.flatMap encodeChar

/-! ## Reading -/

/-- What the first byte of a character says: how many bytes follow, the range of the next one, and
the first bits of the character. -/
structure Lead where
  more : Nat
  low : Nat
  high : Nat
  bits : Nat
  deriving DecidableEq, Repr

/-- What a first byte says. The range of the next byte excludes longer forms than needed, surrogates
and numbers beyond the last character. -/
def lead? (b : Nat) : Option Lead :=
  if b < 0x80 then some ⟨0, 0x80, 0xbf, b⟩
  else if 0xc2 ≤ b ∧ b ≤ 0xdf then some ⟨1, 0x80, 0xbf, b - 0xc0⟩
  else if b = 0xe0 then some ⟨2, 0xa0, 0xbf, 0⟩
  else if b = 0xed then some ⟨2, 0x80, 0x9f, 0xd⟩
  else if 0xe1 ≤ b ∧ b ≤ 0xef then some ⟨2, 0x80, 0xbf, b - 0xe0⟩
  else if b = 0xf0 then some ⟨3, 0x90, 0xbf, 0⟩
  else if 0xf1 ≤ b ∧ b ≤ 0xf3 then some ⟨3, 0x80, 0xbf, b - 0xf0⟩
  else if b = 0xf4 then some ⟨3, 0x80, 0x8f, 4⟩
  else none

/-- The bytes that go on with a character, `more` of them, the first one from `low` to `high`: the
character's number, unless one of them does not go on, and what follows. -/
def goOn (low high bits : Nat) : Nat → List Nat → Option Nat × List Nat
  | 0, bs => (some bits, bs)
  | _ + 1, [] => (none, [])
  | more + 1, b :: bs =>
    if low ≤ b ∧ b ≤ high then goOn 0x80 0xbf (64 * bits + b % 64) more bs else (none, b :: bs)

theorem goOn_le (low high bits more : Nat) (bs : List Nat) :
    (goOn low high bits more bs).2.length ≤ bs.length := by
  induction more generalizing low high bits bs with
  | zero => simp [goOn]
  | succ more ih =>
    cases bs with
    | nil => simp [goOn]
    | cons b bs =>
      simp only [goOn]
      split
      · exact Nat.le_trans (ih ..) (Nat.le_succ _)
      · exact Nat.le_refl _

/-- The characters of bytes, nothing standing for each part that is no character. -/
def scan (bytes : List Nat) : List (Option Char) :=
  match bytes with
  | [] => []
  | b :: bs =>
    match lead? b with
    | none => none :: scan bs
    | some l =>
      have := goOn_le l.low l.high l.bits l.more bs
      (goOn l.low l.high l.bits l.more bs).1.map Char.ofNat ::
        scan (goOn l.low l.high l.bits l.more bs).2
termination_by bytes.length

/-- The text of bytes, if they are one. -/
def strict? (bytes : List Nat) : Option String :=
  ((scan bytes).mapM id).map String.ofList

def replacement : Char := '\ufffd'

/-- The text of bytes with every part replaced that is no character. -/
def lossy (bytes : List Nat) : String :=
  String.ofList ((scan bytes).map (·.getD replacement))

end ComputePlane.Text.Utf8
