import ComputePlane.Json.Basic
import ComputePlane.Number.Digits
import ComputePlane.Text.Utf16

/-!
# Reading JSON

`Json.parse` turns every text into a tree. Where the text stops to be JSON, the tree ends in the
leaf `fault`, and nothing after that place is read.
-/

namespace ComputePlane.Json

open ComputePlane.Number
open ComputePlane.Text.Utf16 (isLead isTrail pair)

/-! ## Tokens -/

/-- White space between tokens. -/
def isSpace (c : Char) : Bool :=
  c == ' ' || c == '\n' || c == '\t' || c == '\r'

/-- The characters from the next token on. -/
def skipSpace (cs : List Char) : List Char :=
  cs.dropWhile isSpace

theorem skipSpace_shorter {cs rest : List Char} {c : Char} (h : skipSpace cs = c :: rest) :
    rest.length < cs.length := by
  have hl : (skipSpace cs).length ≤ cs.length := (List.dropWhile_sublist isSpace).length_le
  rw [h] at hl
  exact hl

/-- The characters after the letter `c` and `word`, if they start with these. -/
def afterWord (c : Char) (word : List Char) (cs : List Char) : Option (List Char) :=
  match cs with
  | [] => none
  | d :: cs => if d = c ∧ word.isPrefixOf cs then some (cs.drop word.length) else none

theorem afterWord_shorter {c : Char} {word cs rest : List Char}
    (h : afterWord c word cs = some rest) : rest.length < cs.length := by
  unfold afterWord at h
  split at h
  · cases h
  · split at h
    · cases h; simp only [List.length_drop, List.length_cons]; omega
    · cases h

/-! ## Numbers -/

/-- Whether a minus sign stands in front, and what follows it. -/
def minusSign : List Char → Bool × List Char
  | '-' :: cs => (true, cs)
  | cs => (false, cs)

/-- Whether a minus sign stands in front, and what follows a sign. -/
def anySign : List Char → Bool × List Char
  | '+' :: cs => (false, cs)
  | cs => minusSign cs

/-- The digits before the point: several digits do not start with a zero. -/
def wholePart? (cs : List Char) : Option (List Nat × List Char) :=
  match takeDigits cs with
  | ([], _) => none
  | (0 :: _ :: _, _) => none
  | (d :: ds, rest) => some (d :: ds, rest)

/-- The digits behind the point, if there is one. -/
def fractionPart? (cs : List Char) : Option (List Nat × List Char) :=
  match cs with
  | '.' :: cs' =>
    match takeDigits cs' with
    | ([], _) => none
    | (d :: ds, rest) => some (d :: ds, rest)
  | cs => some ([], cs)

/-- The exponent behind its letter. -/
def exponentDigits? (cs : List Char) : Option (Option Int × List Char) :=
  match takeDigits (anySign cs).2 with
  | ([], _) => none
  | (d :: ds, rest) =>
    let n : Int := ofDigits 10 (d :: ds)
    some (some (if (anySign cs).1 then -n else n), rest)

/-- The exponent, if there is one. -/
def exponentPart? (cs : List Char) : Option (Option Int × List Char) :=
  match cs with
  | 'e' :: cs' => exponentDigits? cs'
  | 'E' :: cs' => exponentDigits? cs'
  | cs => some (none, cs)

def scanNumber (cs : List Char) : Option (Numeral × List Char) :=
  match wholePart? (minusSign cs).2 with
  | none => none
  | some (whole, cs₁) =>
    match fractionPart? cs₁ with
    | none => none
    | some (fraction, cs₂) =>
      match exponentPart? cs₂ with
      | none => none
      | some (exponent, cs₃) => some (⟨(minusSign cs).1, whole, fraction, exponent⟩, cs₃)

theorem minusSign_le (cs : List Char) : (minusSign cs).2.length ≤ cs.length := by
  unfold minusSign
  split <;> simp

theorem anySign_le (cs : List Char) : (anySign cs).2.length ≤ cs.length := by
  unfold anySign
  split
  · simp
  · exact minusSign_le _

theorem takeDigits_length (cs : List Char) :
    (takeDigits cs).1.length + (takeDigits cs).2.length = cs.length := by
  induction cs with
  | nil => rfl
  | cons c cs ih =>
    unfold takeDigits
    split
    · simp only [List.length_cons]; omega
    · simp

theorem takeDigits_shorter {cs rest : List Char} {d : Nat} {ds : List Nat}
    (h : takeDigits cs = (d :: ds, rest)) : rest.length < cs.length := by
  have hl := takeDigits_length cs
  rw [h] at hl
  simp only [List.length_cons] at hl
  omega

theorem wholePart?_shorter {cs rest : List Char} {ds : List Nat}
    (h : wholePart? cs = some (ds, rest)) : rest.length < cs.length := by
  unfold wholePart? at h
  split at h
  · cases h
  · cases h
  · rename_i heq; cases h; exact takeDigits_shorter heq

theorem fractionPart?_le {cs rest : List Char} {ds : List Nat}
    (h : fractionPart? cs = some (ds, rest)) : rest.length ≤ cs.length := by
  unfold fractionPart? at h
  split at h
  · split at h
    · cases h
    · rename_i heq
      cases h
      have := takeDigits_shorter heq
      simp only [List.length_cons]
      omega
  · cases h; exact Nat.le_refl _

theorem exponentDigits?_le {cs rest : List Char} {e : Option Int}
    (h : exponentDigits? cs = some (e, rest)) : rest.length ≤ cs.length := by
  unfold exponentDigits? at h
  split at h
  · cases h
  · rename_i heq
    cases h
    have h₁ := takeDigits_shorter heq
    have h₂ := anySign_le cs
    omega

theorem exponentPart?_le {cs rest : List Char} {e : Option Int}
    (h : exponentPart? cs = some (e, rest)) : rest.length ≤ cs.length := by
  unfold exponentPart? at h
  split at h
  · have := exponentDigits?_le h; simp only [List.length_cons]; omega
  · have := exponentDigits?_le h; simp only [List.length_cons]; omega
  · cases h; exact Nat.le_refl _

/-- A number leaves fewer characters. -/
theorem scanNumber_shorter {cs rest : List Char} {x : Numeral}
    (h : scanNumber cs = some (x, rest)) : rest.length < cs.length := by
  unfold scanNumber at h
  split at h
  · cases h
  · rename_i h₁
    split at h
    · cases h
    · rename_i h₂
      split at h
      · cases h
      · rename_i h₃
        cases h
        have l₁ := wholePart?_shorter h₁
        have l₂ := fractionPart?_le h₂
        have l₃ := exponentPart?_le h₃
        have l₀ := minusSign_le cs
        omega

/-! ## Strings -/

/-- The 16-bit unit that four hexadecimal digits write. -/
def hexUnit? (cs : List Char) : Option Nat :=
  let ds := (cs.take 4).filterMap hexDigit?
  if ds.length = 4 then some (ofDigits 16 ds) else none

/-- The escape `\u` at the front of the characters, as its unit. -/
def unitEscape? (cs : List Char) : Option Nat :=
  match cs with
  | '\\' :: 'u' :: cs => hexUnit? cs
  | _ => none

/-- The character of a one-letter escape. -/
def shortEscape? (c : Char) : Option Char :=
  match c with
  | '"' => some '"'
  | '\\' => some '\\'
  | '/' => some '/'
  | 'b' => some '\x08'
  | 'f' => some '\x0c'
  | 'n' => some '\n'
  | 'r' => some '\r'
  | 't' => some '\t'
  | _ => none

/-- One item of a string: a character if it has one, and the characters after the item. -/
inductive Piece where
  | stop (rest : List Char)
  | item (char : Option Char) (rest : List Char)
  | broken

/-- The characters after a `\u`. -/
def unitPiece (cs : List Char) : Piece :=
  match hexUnit? cs with
  | none => .broken
  | some n =>
    let rest := cs.drop 4
    if isLead n then
      match unitEscape? rest with
      | some m =>
        if isTrail m then .item (some (pair n m)) (rest.drop 6) else .item none rest
      | none => .item none rest
    else if isTrail n then .item none rest
    else .item (some (Char.ofNat n)) rest

/-- The item at the front of the characters of a string. -/
def piece (cs : List Char) : Piece :=
  match cs with
  | [] => .broken
  | '"' :: rest => .stop rest
  | '\\' :: 'u' :: rest => unitPiece rest
  | '\\' :: c :: rest =>
    match shortEscape? c with
    | some c => .item (some c) rest
    | none => .broken
  | '\\' :: [] => .broken
  | c :: rest => if c.toNat < 0x20 then .broken else .item (some c) rest

/-- An item leaves fewer characters. -/
theorem piece_item_shorter {cs rest : List Char} {c : Option Char}
    (h : piece cs = .item c rest) : rest.length < cs.length := by
  unfold piece at h
  split at h
  · cases h
  · cases h
  · unfold unitPiece at h
    split at h
    · cases h
    · dsimp only at h
      split at h
      · split at h
        · split at h <;> (cases h; simp only [List.length_drop, List.length_cons]; omega)
        · cases h; simp only [List.length_drop, List.length_cons]; omega
      · split at h <;> (cases h; simp only [List.length_drop, List.length_cons]; omega)
  · split at h
    · cases h; simp only [List.length_cons]; omega
    · cases h
  · cases h
  · split at h
    · cases h
    · cases h; simp only [List.length_cons]; omega

/-- The closing quote leaves fewer characters. -/
theorem piece_stop_shorter {cs rest : List Char} (h : piece cs = .stop rest) :
    rest.length < cs.length := by
  unfold piece at h
  split at h
  · cases h
  · cases h; simp only [List.length_cons]; omega
  · unfold unitPiece at h
    split at h
    · cases h
    · dsimp only at h
      split at h
      · split at h
        · split at h <;> cases h
        · cases h
      · split at h <;> cases h
  · split at h <;> cases h
  · cases h
  · split at h <;> cases h

/-- A character in front of a string, if both have their characters. -/
def consChar : Option Char → Option (List Char) → Option (List Char)
  | some c, some s => some (c :: s)
  | _, _ => none

/-- A string up to its closing quote: its characters, unless half a surrogate pair stands alone in
it, and what follows. -/
def scanString (cs : List Char) : Option (Option (List Char) × List Char) :=
  match _h : piece cs with
  | .broken => none
  | .stop rest => some (some [], rest)
  | .item c rest =>
    (scanString rest).map fun p => (consChar c p.1, p.2)
termination_by cs.length
decreasing_by exact piece_item_shorter _h

/-- A string leaves fewer characters. -/
theorem scanString_shorter (cs : List Char) {p : Option (List Char) × List Char}
    (h : scanString cs = some p) : p.2.length < cs.length := by
  rw [scanString] at h
  split at h
  · cases h
  · rename_i hp; cases h; exact piece_stop_shorter hp
  · rename_i c rest hp
    obtain ⟨q, hq, rfl⟩ := Option.map_eq_some_iff.1 h
    have hr := piece_item_shorter hp
    have ih := scanString_shorter rest hq
    exact Nat.lt_trans ih hr
termination_by cs.length

/-! ## Values -/

/-- What follows a value: nothing if the value ends in a fault, else fewer characters than `cs`. -/
abbrev Rest (cs : List Char) := Option { r : List Char // r.length < cs.length }

/-- What follows a value, seen from further in front. -/
def Rest.widen {cs ds : List Char} (h : cs.length ≤ ds.length) (r : Rest cs) : Rest ds :=
  r.map fun r => ⟨r.1, Nat.lt_of_lt_of_le r.2 h⟩

/-- The letter `c` and the word `w` behind it, with the value `v`. -/
def readWord (c : Char) (w : List Char) (v : Json) (cs : List Char) : Json × Rest cs :=
  match h : afterWord c w cs with
  | some rest => (v, some ⟨rest, afterWord_shorter h⟩)
  | none => (.fault, none)

def readNumber (cs : List Char) : Json × Rest cs :=
  match h : scanNumber cs with
  | some (x, rest) => (.number x, some ⟨rest, scanNumber_shorter h⟩)
  | none => (.fault, none)

/-- The characters of a string, behind its opening quote. -/
def readString (cs : List Char) : Option String × Bool × Rest cs :=
  match h : scanString cs with
  | some (s, rest) => (s.map String.ofList, true, some ⟨rest, scanString_shorter cs h⟩)
  | none => (none, false, none)

mutual

/-- The value at the front of the characters. -/
def readValue (cs : List Char) : Json × Rest cs :=
  match h : skipSpace cs with
  | [] => (.fault, none)
  | c :: rest =>
    have hr : rest.length < cs.length := skipSpace_shorter h
    if c = '"' then
      match readString rest with
      | (s, true, r) => (.string s, r.widen (Nat.le_of_lt hr))
      | (_, false, _) => (.fault, none)
    else if c = '[' then
      match h' : skipSpace rest with
      | ']' :: rest' => (.array [], some ⟨rest', Nat.lt_trans (skipSpace_shorter h') hr⟩)
      | _ => let (vs, r) := readItems rest; (.array vs, r.widen (Nat.le_of_lt hr))
    else if c = '\x7b' then
      match h' : skipSpace rest with
      | '\x7d' :: rest' => (.object [], some ⟨rest', Nat.lt_trans (skipSpace_shorter h') hr⟩)
      | _ => let (ms, r) := readMembers rest; (.object ms, r.widen (Nat.le_of_lt hr))
    else
      have hc : (c :: rest).length ≤ cs.length := hr
      let (v, r) :=
        if c = 'n' then readWord 'n' ['u', 'l', 'l'] .null (c :: rest)
        else if c = 't' then readWord 't' ['r', 'u', 'e'] (.bool true) (c :: rest)
        else if c = 'f' then readWord 'f' ['a', 'l', 's', 'e'] (.bool false) (c :: rest)
        else readNumber (c :: rest)
      (v, r.widen hc)
termination_by (cs.length, 0)

/-- The items of an array up to its closing bracket. -/
def readItems (cs : List Char) : List Json × Rest cs :=
  match readValue cs with
  | (v, none) => ([v], none)
  | (v, some ⟨rest, hr⟩) =>
    match h : skipSpace rest with
    | ']' :: rest' => ([v], some ⟨rest', Nat.lt_trans (skipSpace_shorter h) hr⟩)
    | ',' :: rest' =>
      have hr' : rest'.length < cs.length := Nat.lt_trans (skipSpace_shorter h) hr
      let (vs, r) := readItems rest'
      (v :: vs, r.widen (Nat.le_of_lt hr'))
    | _ => ([v, .fault], none)
termination_by (cs.length, 1)

/-- The members of an object up to its closing brace. -/
def readMembers (cs : List Char) : List (Option String × Json) × Rest cs :=
  match h : skipSpace cs with
  | '"' :: rest =>
    have hr : rest.length < cs.length := skipSpace_shorter h
    match readString rest with
    | (key, true, some ⟨rest₁, h₁⟩) =>
      match h₂ : skipSpace rest₁ with
      | ':' :: rest₂ =>
        have hr₂ : rest₂.length < cs.length :=
          Nat.lt_trans (skipSpace_shorter h₂) (Nat.lt_trans h₁ hr)
        match readValue rest₂ with
        | (v, none) => ([(key, v)], none)
        | (v, some ⟨rest₃, h₃⟩) =>
          match h₄ : skipSpace rest₃ with
          | '\x7d' :: rest₄ =>
            ([(key, v)], some ⟨rest₄, Nat.lt_trans (skipSpace_shorter h₄) (Nat.lt_trans h₃ hr₂)⟩)
          | ',' :: rest₄ =>
            have hr₄ : rest₄.length < cs.length :=
              Nat.lt_trans (skipSpace_shorter h₄) (Nat.lt_trans h₃ hr₂)
            let (ms, r) := readMembers rest₄
            ((key, v) :: ms, r.widen (Nat.le_of_lt hr₄))
          | _ => ([(key, v), (none, .fault)], none)
      | _ => ([(key, .fault)], none)
    | _ => ([(none, .fault)], none)
  | _ => ([(none, .fault)], none)
termination_by (cs.length, 0)

end

/-- A text as a tree, and whether the tree is all of it. -/
structure Document where
  root : Json
  complete : Bool
  deriving Repr

/-- Reads a text; white space may surround its tree. -/
def parse (s : String) : Document :=
  match readValue s.toList with
  | (v, some rest) => ⟨v, (skipSpace rest.1).isEmpty⟩
  | (v, none) => ⟨v, false⟩

end ComputePlane.Json
