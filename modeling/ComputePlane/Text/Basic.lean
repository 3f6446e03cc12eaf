/-!
# Texts cut, trimmed and searched

The few operations on texts that ids, settings and names are read with. Each works on the list of a
text's characters and ignores no character but those its rule names.
-/

namespace ComputePlane.Text

/-! ## Blank characters -/

/-- Ranges of code points with the Unicode property White_Space. -/
def blankRanges : List (Nat × Nat) :=
  [(0x09, 0x0d), (0x20, 0x20), (0x85, 0x85), (0xa0, 0xa0), (0x1680, 0x1680), (0x2000, 0x200a),
    (0x2028, 0x2029), (0x202f, 0x202f), (0x205f, 0x205f), (0x3000, 0x3000)]

/-- White space of any script. -/
def isBlank (c : Char) : Bool :=
  blankRanges.any fun r => r.1 ≤ c.toNat && c.toNat ≤ r.2

/-- The characters from the first one that is not blank. -/
def trimLeft (cs : List Char) : List Char :=
  cs.dropWhile isBlank

/-- The characters up to the last one that is not blank. -/
def trimRight (cs : List Char) : List Char :=
  (trimLeft cs.reverse).reverse

/-- The characters between the first and the last that are not blank. -/
def trimChars (cs : List Char) : List Char :=
  trimRight (trimLeft cs)

/-- A text without the blank characters at its two ends. -/
def trim (s : String) : String :=
  String.ofList (trimChars s.toList)

/-- A text without the blank characters at its end. -/
def trimEnd (s : String) : String :=
  String.ofList (trimRight s.toList)

/-! ## Cutting -/

/-- The pieces between the occurrences of `sep`: one more piece than there are separators. -/
def pieces (sep : Char) : List Char → List (List Char)
  | [] => [[]]
  | c :: cs =>
    if c = sep then [] :: pieces sep cs
    else
      match pieces sep cs with
      | [] => [[c]]
      | p :: ps => (c :: p) :: ps

/-- The pieces of a text between the occurrences of `sep`. -/
def split (sep : Char) (s : String) : List String :=
  (pieces sep s.toList).map String.ofList

/-- The characters before and after the first `sep`. -/
def cutChars (sep : Char) : List Char → Option (List Char × List Char)
  | [] => none
  | c :: cs =>
    if c = sep then some ([], cs) else (cutChars sep cs).map fun p => (c :: p.1, p.2)

/-- A text before and after its first `sep`. -/
def cut (sep : Char) (s : String) : Option (String × String) :=
  (cutChars sep s.toList).map fun p => (String.ofList p.1, String.ofList p.2)

/-- A text before its last `sep`. -/
def beforeLast (sep : Char) (s : String) : Option String :=
  (cutChars sep s.toList.reverse).map fun p => String.ofList p.2.reverse

/-- A text without the run of `c` at its end. -/
def dropTrailing (c : Char) (s : String) : String :=
  String.ofList (s.toList.reverse.dropWhile (· == c)).reverse

/-! ## Searching -/

/-- A text with its ASCII capitals made small; other letters stay. -/
def lower (s : String) : String :=
  s.map Char.toLower

/-- Equality up to the case of ASCII letters. -/
def sameFolded (s t : String) : Bool :=
  lower s == lower t

/-- `needle` stands somewhere in the characters. -/
def occursIn (needle : List Char) : List Char → Bool
  | [] => needle.isEmpty
  | c :: cs => needle.isPrefixOf (c :: cs) || occursIn needle cs

def contains (s needle : String) : Bool :=
  occursIn needle.toList s.toList

end ComputePlane.Text
