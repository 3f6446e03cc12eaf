import ComputePlane.Text.Basic
import ComputePlane.Text.Utf16

/-!
# Character sets

The sets that bodies are read in: UTF-8, UTF-16, windows-1252, which also stands for the older
western sets, and others, whose readings are given. A byte order mark at the front says that the
text is Unicode, whatever the label.
-/

namespace ComputePlane.Text

/-! ## The western set -/

/-- The characters of the bytes from 128 to 159 in windows-1252. -/
def westernMarks : List Char :=
  ['\u20ac', '\u0081', '\u201a', '\u0192', '\u201e', '\u2026', '\u2020', '\u2021',
    '\u02c6', '\u2030', '\u0160', '\u2039', '\u0152', '\u008d', '\u017d', '\u008f',
    '\u0090', '\u2018', '\u2019', '\u201c', '\u201d', '\u2022', '\u2013', '\u2014',
    '\u02dc', '\u2122', '\u0161', '\u203a', '\u0153', '\u009d', '\u017e', '\u0178']

/-- The character of a byte in windows-1252. -/
def westernChar (b : Nat) : Char :=
  if 128 ≤ b ∧ b < 160 then westernMarks.getD (b - 128) Utf8.replacement else Char.ofNat b

/-! ## Sets -/

/-- A character set. -/
inductive Charset where
  | utf8
  | utf16 (order : Utf16.ByteOrder)
  | western
  /-- Any other one, by the texts of bytes in it. -/
  | other (text : List Nat → String)

namespace Charset

/-- The text of bytes without a byte order mark. -/
def read : Charset → List Nat → String
  | utf8, bytes => Utf8.lossy bytes
  | utf16 o, bytes => String.ofList (Utf16.scan o bytes)
  | western, bytes => String.ofList (bytes.map westernChar)
  | other text, bytes => text bytes

/-- The byte order marks, with the sets that they stand for. -/
def marks : List (List Nat × Charset) :=
  [([0xef, 0xbb, 0xbf], utf8), ([0xff, 0xfe], utf16 .little), ([0xfe, 0xff], utf16 .big)]

/-- The text of bytes. A byte order mark is no part of it. -/
def decode (c : Charset) (bytes : List Nat) : String :=
  match marks.find? (·.1.isPrefixOf bytes) with
  | some (mark, c) => c.read (bytes.drop mark.length)
  | none => c.read bytes

/-! ## Labels -/

def utf8Labels : List String :=
  ["unicode-1-1-utf-8", "unicode11utf8", "unicode20utf8", "utf-8", "utf8", "x-unicode20utf8"]

/-- The labels of UTF-16 with the low byte of each unit first. -/
def littleLabels : List String :=
  ["csunicode", "iso-10646-ucs-2", "ucs-2", "unicode", "unicodefeff", "utf-16", "utf-16le"]

/-- The labels of UTF-16 with the high byte of each unit first. -/
def bigLabels : List String := ["unicodefffe", "utf-16be"]

/-- The labels of windows-1252. -/
def westernLabels : List String :=
  ["ansi_x3.4-1968", "ascii", "cp1252", "cp819", "csisolatin1", "ibm819", "iso-8859-1",
    "iso-ir-100", "iso8859-1", "iso88591", "iso_8859-1", "iso_8859-1:1987", "l1", "latin1",
    "us-ascii", "windows-1252", "x-cp1252"]

/-- The texts of bytes in the sets of all other labels. What is no label has none. -/
abbrev Others := String → Option (List Nat → String)

/-- The set of a label, UTF-8 if there is none. -/
def ofLabel (others : Others) (label : String) : Charset :=
  let label := trim (lower label)
  if utf8Labels.contains label then utf8
  else if littleLabels.contains label then utf16 .little
  else if bigLabels.contains label then utf16 .big
  else if westernLabels.contains label then western
  else ((others label).map other).getD utf8

end Charset

end ComputePlane.Text
