import ComputePlane.Text.Basic
import ComputePlane.Number.Digits

/-!
# Points in time

Dates with a time of day and an offset, as in `2016-10-20T12:39:41Z`. Blank characters may stand in
front of each number and each separator, and a blank may stand for the `T`. The result counts from
the start of 1970 in universal time; a leap second is the second before it, running on.
-/

namespace ComputePlane

/-- Seconds since the start of 1970, and nanoseconds since that second. -/
structure Timestamp where
  seconds : Int
  nanos : Nat
  deriving DecidableEq, Repr

namespace Timestamp

open ComputePlane.Text ComputePlane.Number

/-! ## The calendar -/

def isLeap (year : Int) : Bool :=
  year % 4 = 0 && (year % 100 ≠ 0 || year % 400 = 0)

def monthLengths (year : Int) : List Nat :=
  [31, if isLeap year then 29 else 28, 31, 30, 31, 30, 31, 31, 30, 31, 30, 31]

/-- The days from the start of the year 1 to the start of `year`. -/
def daysBefore (year : Int) : Int :=
  let p := year - 1
  365 * p + p / 4 - p / 100 + p / 400

/-- The first and the last year. -/
def years : Int × Int := (-262143, 262142)

/-- The days from the start of 1970 to a date, if there is such a date. -/
def daysTo? (year : Int) (month day : Nat) : Option Int :=
  match (monthLengths year)[month - 1]? with
  | none => none
  | some length =>
    if years.1 ≤ year ∧ year ≤ years.2 ∧ 1 ≤ month ∧ 1 ≤ day ∧ day ≤ length then
      let passed := total ((monthLengths year).take (month - 1))
      some (daysBefore year - daysBefore 1970 + passed + (day - 1))
    else none

def daySeconds : Nat := 24 * 60 * 60

/-- A number of seconds that lies in one of the years. -/
def inYears (seconds : Int) : Bool :=
  (daysBefore years.1 - daysBefore 1970) * daySeconds ≤ seconds &&
    seconds < (daysBefore (years.2 + 1) - daysBefore 1970) * daySeconds

/-! ## Reading -/

/-- A number of at most `most` digits behind blank characters. -/
def number? (most : Nat) (cs : List Char) : Option (Nat × List Char) :=
  let cs := trimLeft cs
  match (takeDigits (cs.take most)).1 with
  | [] => none
  | ds => some (ofDigits 10 ds, cs.drop ds.length)

/-- A year: up to four digits, or a sign and any number of digits. -/
def year? (cs : List Char) : Option (Int × List Char) :=
  let signed (cs : List Char) : Option (Nat × List Char) :=
    match takeDigits cs with
    | ([], _) => none
    | (ds, rest) => some (ofDigits 10 ds, rest)
  match trimLeft cs with
  | '-' :: cs => (signed cs).map fun p => (-p.1, p.2)
  | '+' :: cs => (signed cs).map fun p => (p.1, p.2)
  | cs => (number? 4 cs).map fun p => (p.1, p.2)

/-- What follows the separator `c`, which may stand behind blank characters. -/
def separator? (c : Char) (cs : List Char) : Option (List Char) :=
  match trimLeft cs with
  | [] => none
  | d :: cs => if d = c then some cs else none

/-- Nine digits of a second's fraction, further ones dropped; without a point, none. -/
def nanos? (cs : List Char) : Option (Nat × List Char) :=
  match cs with
  | '.' :: cs =>
    match takeDigits cs with
    | ([], _) => none
    | (ds, rest) =>
      let kept := ds.take 9
      some (ofDigits 10 kept * tenTo (9 - kept.length), rest)
  | cs => some (0, cs)

def twoDigits? (cs : List Char) : Option (Nat × List Char) :=
  match cs with
  | a :: b :: rest =>
    match digit? a, digit? b with
    | some x, some y => some (10 * x + y, rest)
    | _, _ => none
  | _ => none

/-- Hours and minutes of an offset, with or without a colon between them, in seconds. -/
def shift? (cs : List Char) : Option (Nat × List Char) := do
  let (hours, cs) ← twoDigits? cs
  let (minutes, cs) ← twoDigits? (cs.dropWhile fun c => c == ':' || isBlank c)
  if minutes < 60 ∧ hours < 24 then some ((60 * hours + minutes) * 60, cs) else none

/-- The offset from universal time, in seconds. -/
def offset? (cs : List Char) : Option (Int × List Char) :=
  let cs := trimLeft cs
  if (cs.take 3).map Char.toLower = ['u', 't', 'c'] then some (0, cs.drop 3)
  else
    match cs with
    | 'Z' :: cs => some (0, cs)
    | 'z' :: cs => some (0, cs)
    | '+' :: cs => (shift? cs).map fun p => (p.1, p.2)
    | '-' :: cs => (shift? cs).map fun p => (-p.1, p.2)
    | '\u2212' :: cs => (shift? cs).map fun p => (-p.1, p.2)
    | _ => none

/-- The days of a date, and what follows it. -/
def date? (cs : List Char) : Option (Int × List Char) := do
  let (year, cs) ← year? cs
  let (month, cs) ← number? 2 (← separator? '-' cs)
  let (day, cs) ← number? 2 (← separator? '-' cs)
  let days ← daysTo? year month day
  return (days, cs)

/-- The seconds and nanoseconds of a time of day, and what follows it. -/
def time? (cs : List Char) : Option (Nat × Nat × List Char) := do
  let (hour, cs) ← number? 2 cs
  let (minute, cs) ← number? 2 (← separator? ':' cs)
  let (second, cs) ← number? 2 (← separator? ':' cs)
  let (nanos, cs) ← nanos? cs
  if hour < 24 ∧ minute < 60 ∧ second ≤ 60 then
    let leap := second = 60
    let second := if leap then 59 else second
    return ((60 * hour + minute) * 60 + second, if leap then nanos + tenTo 9 else nanos, cs)
  else none

/-- The separator of date and time. -/
def isDateEnd (c : Char) : Bool :=
  c == 'T' || c == 't' || c == ' '

def parse? (s : String) : Option Timestamp := do
  let (days, cs) ← date? s.toList
  match cs with
  | [] => none
  | c :: cs =>
    if isDateEnd c then
      let (second, nanos, cs) ← time? cs
      let (offset, cs) ← offset? cs
      let seconds := days * daySeconds + second - offset
      if (trimLeft cs).isEmpty ∧ inYears seconds then return ⟨seconds, nanos⟩ else none
    else none

end Timestamp

end ComputePlane
