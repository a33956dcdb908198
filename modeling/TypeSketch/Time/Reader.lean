import TypeSketch.Time.Instant
import TypeSketch.Unicode.Classes

/-!
# Reading Instants

Reading an instant in RFC 3339, in its relaxed form: white space may stand before
every number, mark and offset, a `t` or a blank may stand for the `T`, and the
offset is `Z`, `UTC` or a sign with hours and minutes.

Faults are found from left to right. A number out of the range of its field is
found where it stands; a date that its month does not have, only at the end.

## Main definitions

* `Instant.Fault`: What can be wrong with the text of an instant.
* `Instant.parse`: The instant that a text writes.
-/

namespace TypeSketch

namespace Instant

/-- Why a text is no instant. -/
inductive Fault where
  | premature
  | outOfRange
  | invalidCharacters
  | trailingInput
  | impossible
deriving Repr, DecidableEq

/-- The wording of a fault. -/
def Fault.message : Fault → String
  | premature => "premature end of input"
  | outOfRange => "input is out of range"
  | invalidCharacters => "input contains invalid characters"
  | trailingInput => "trailing input"
  | impossible => "no possible date and time matching input"

/-- Reads at most `width` digits and at least one. -/
def readDigits (width : Nat) (cs : List Char) : Except Fault (Nat × List Char) :=
  let digits := (cs.take width).takeWhile Char.isDigit
  let value := digits.foldl (fun n c => n * 10 + (c.toNat - '0'.toNat)) 0
  if cs.isEmpty then .error .premature
  else if digits.isEmpty then .error .invalidCharacters
  else if 0x8000000000000000 ≤ value then .error .outOfRange
  else .ok (value, cs.drop digits.length)

/-- Reads a field of at most two digits between two bounds, after white space. -/
def readField (low high : Nat) (cs : List Char) : Except Fault (Nat × List Char) := do
  let (value, rest) ← readDigits 2 (cs.dropWhile Unicode.isBlank)
  if low ≤ value ∧ value ≤ high then .ok (value, rest) else .error .outOfRange

/-- Reads a year: four digits, or any number of them after a sign. -/
def readYear (cs : List Char) : Except Fault (Int × List Char) := do
  let cs := cs.dropWhile Unicode.isBlank
  let (year, rest) ←
    match cs with
    | '-' :: rest => (readDigits rest.length rest).map fun (n, rest) => (-(n : Int), rest)
    | '+' :: rest => (readDigits rest.length rest).map fun (n, rest) => ((n : Int), rest)
    | _ => (readDigits 4 cs).map fun (n, rest) => ((n : Int), rest)
  if -0x80000000 ≤ year ∧ year < 0x80000000 then .ok (year, rest) else .error .outOfRange

/-- Reads a mark, after white space. -/
def readMark (mark : Char) (cs : List Char) : Except Fault (List Char) :=
  match cs.dropWhile Unicode.isBlank with
  | [] => .error .premature
  | c :: rest => if c = mark then .ok rest else .error .invalidCharacters

/-- Reads the fraction of a second, if one is there, cut to nanoseconds. -/
def readFraction (cs : List Char) : Except Fault (Nat × List Char) :=
  match cs with
  | '.' :: rest => do
    let (value, after) ← readDigits 9 rest
    .ok (value * Nat.pow 10 (9 - (rest.length - after.length)), after.dropWhile Char.isDigit)
  | _ => .ok (0, cs)

/-- The two characters that digits of an offset should be. -/
def takeTwo (cs : List Char) : Except Fault (Char × Char × List Char) :=
  match cs with
  | a :: b :: rest => .ok (a, b, rest)
  | [a] => if 1 < a.utf8Size then .error .invalidCharacters else .error .premature
  | [] => .error .premature

/-- Reads hours and minutes after the sign of an offset, in seconds. -/
def readOffsetSize (cs : List Char) : Except Fault (Nat × List Char) := do
  let (h₁, h₂, rest) ← takeTwo cs
  if !h₁.isDigit || !h₂.isDigit then .error .invalidCharacters
  else
    let rest := rest.dropWhile fun c => c = ':' || Unicode.isBlank c
    let (m₁, m₂, rest) ← takeTwo rest
    if !m₁.isDigit || !m₂.isDigit then .error .invalidCharacters
    else if '6' ≤ m₁ then .error .outOfRange
    else
      let number := fun (a b : Char) => (a.toNat - '0'.toNat) * 10 + (b.toNat - '0'.toNat)
      .ok (number h₁ h₂ * 3600 + number m₁ m₂ * 60, rest)

/-- Reads an offset from UTC, in seconds. -/
def readOffset (cs : List Char) : Except Fault (Int × List Char) :=
  let word := (cs.take 3).map Char.toUpper
  if word = ['U', 'T', 'C'] then .ok (0, cs.drop 3)
  else
    match cs with
    | [] => .error .premature
    | c :: rest =>
      if c = 'Z' ∨ c = 'z' then .ok (0, rest)
      else if c = '+' then (readOffsetSize rest).map fun (n, rest) => ((n : Int), rest)
      else if c = '-' ∨ c = '\u2212' then
        (readOffsetSize rest).map fun (n, rest) => (-(n : Int), rest)
      else .error .invalidCharacters

/-- The instant of a local date and time with an offset, the second counted from the
    start of the local day. -/
def ofLocal (year : Int) (month day second nanosecond : Nat) (offset : Int) :
    Except Fault Instant :=
  if !Calendar.isDate year month day then .error .outOfRange
  else if offset ≤ -86400 ∨ 86400 ≤ offset then .error .outOfRange
  else
    -- An offset can move the instant to another day, and the last year may have no such day.
    let moved : Int := second - offset
    let utcDay := Calendar.dayOfDate year month day + moved.fdiv 86400
    let utcYear := (Calendar.dateOfDay utcDay).1
    if utcYear < Calendar.minYear ∨ Calendar.maxYear < utcYear then .error .impossible
    else .ok ⟨utcDay, (moved.fmod 86400).toNat, nanosecond⟩

/-- The instant that a text writes. A sixtieth second is a leap second. -/
def parse (s : String) : Except Fault Instant := do
  let (year, cs) ← readYear s.toList
  let cs ← readMark '-' cs
  let (month, cs) ← readField 1 12 cs
  let cs ← readMark '-' cs
  let (day, cs) ← readField 1 31 cs
  let cs ←
    match cs with
    | [] => .error .premature
    | c :: rest => if c = 'T' ∨ c = 't' ∨ c = ' ' then .ok rest else .error .invalidCharacters
  let (hour, cs) ← readField 0 23 cs
  let cs ← readMark ':' cs
  let (minute, cs) ← readField 0 59 cs
  let cs ← readMark ':' cs
  let (second, cs) ← readField 0 60 cs
  let (nanosecond, cs) ← readFraction cs
  let (offset, cs) ← readOffset (cs.dropWhile Unicode.isBlank)
  if !(cs.dropWhile Unicode.isBlank).isEmpty then .error .trailingInput
  else
    -- A leap second is kept as a second of the nanoseconds after second 59.
    let leap := second / 60
    ofLocal year month day (hour * 3600 + minute * 60 + second - leap)
      (leap * 1000000000 + nanosecond) offset

end Instant

end TypeSketch
