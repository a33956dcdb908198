import TypeSketch.Binary64.Basic
import TypeSketch.Json.Fault

/-!
# JSON Numbers

Reading a number. A number without fraction and exponent is an integer if it fits
64 bits, signed below zero and unsigned from zero on; everything else is a
double-precision number, and so is `-0`.

The digits are gathered in a 64-bit significand. Digits that no longer fit are
counted if they belong to the integer and dropped if they belong to the fraction.
The double is then made from the rounded significand with one rounded
multiplication or division by a power of ten (below the range of the format with
two), so its last bits can differ from those of the nearest double.

## Main definitions

* `Json.Number`: An integer or a double-precision number.
* `Json.absorb`: Digits gathered in a 64-bit significand.
* `Json.scaleByTen`: A significand times a power of ten.
* `Json.readNumber`, `Json.skipNumber`: Reading and passing over a number.
-/

namespace TypeSketch

namespace Json

/-- A number: an integer of at most 64 bits, or a double-precision number. -/
inductive Number where
  | integer (i : Int)
  | real (x : Binary64)
deriving Repr, DecidableEq

/-- The largest significand. -/
def maxSignificand : Nat := 0xFFFFFFFFFFFFFFFF

/-- The value of a decimal digit. -/
def digitValue (c : Char) : Nat := c.toNat - '0'.toNat

/-- The significand with the digits appended that still fit, and the number of these. -/
def absorb (significand : Nat) : List Char → Nat × Nat
  | [] => (significand, 0)
  | d :: rest =>
    let next := significand * 10 + digitValue d
    -- From the first digit that does not fit on, digits only count.
    if maxSignificand < next then (significand, 0)
    else let (final, count) := absorb next rest; (final, count + 1)

/-- The power of ten nearest to `10 ^ exponent`. -/
def powerOfTen (exponent : Nat) : Binary64 :=
  Binary64.ofRatio false (Nat.pow 10 exponent) 1

/-- A significand times a power of ten. The largest power of the format is
    `10 ^ 308`; a smaller number is divided by it first, and after two divisions
    every significand is zero. -/
def scaleByTen (significand : Nat) (exponent : Int) : Except Fault Binary64 :=
  let f := Binary64.ofRatio false significand 1
  if 0 ≤ exponent then
    if exponent ≤ 308 then
      let product := f.mul (powerOfTen exponent.toNat)
      if product.isInfinite then .error .numberOutOfRange else .ok product
    else if significand = 0 then .ok f else .error .numberOutOfRange
  else if -308 ≤ exponent then .ok (f.div (powerOfTen (-exponent).toNat))
  else if -616 ≤ exponent then
    .ok ((f.div (powerOfTen 308)).div (powerOfTen (-(exponent + 308)).toNat))
  else .ok (Binary64.zero false)

/-- The double-precision number of the parts, with its sign. -/
def realOfParts (negative : Bool) (significand : Nat) (exponent : Int) : Except Fault Number :=
  (scaleByTen significand exponent).map fun x => .real (if negative then x.neg else x)

/-- Reads what follows the `e` of a number whose digits are read. An exponent
    beyond 32 bits is not added to: the number is out of range or zero. -/
def readExponent (negative : Bool) (significand : Nat) (exponent : Int) (cs : List Char) :
    Reading Number :=
  let (below, cs) : Bool × List Char :=
    match cs with
    | '+' :: rest => (false, rest)
    | '-' :: rest => (true, rest)
    | _ => (false, cs)
  let digits := cs.takeWhile Char.isDigit
  let rest := cs.dropWhile Char.isDigit
  let size := digits.foldl (fun n c => n * 10 + digitValue c) 0
  if digits.isEmpty then .error (if cs.isEmpty then .unfinishedValue else .invalidNumber)
  -- Such an exponent is not even added to what the digits have left over.
  else if 0x80000000 ≤ size then
    if significand ≠ 0 ∧ !below then .error .numberOutOfRange
    else .ok (.real (Binary64.zero negative), rest)
  else
    (realOfParts negative significand (if below then exponent - size else exponent + size)).map
      (·, rest)

/-- Reads what follows the digits of a number: an exponent or nothing. -/
def readScale (negative : Bool) (significand : Nat) (exponent : Int) (cs : List Char) :
    Reading Number :=
  match cs with
  | 'e' :: rest => readExponent negative significand exponent rest
  | 'E' :: rest => readExponent negative significand exponent rest
  | _ => (realOfParts negative significand exponent).map (·, cs)

/-- Reads what follows the point of a number whose integer is read. -/
def readFraction (negative : Bool) (significand : Nat) (exponent : Int) (cs : List Char) :
    Reading Number :=
  let digits := cs.takeWhile Char.isDigit
  let (significand, count) := absorb significand digits
  if digits.isEmpty then .error (if cs.isEmpty then .unfinishedValue else .invalidNumber)
  else readScale negative significand (exponent - count) (cs.dropWhile Char.isDigit)

/-- The number of an integer alone. Below zero it has to fit 64 bits with its sign. -/
def integerNumber (negative : Bool) (significand : Nat) : Number :=
  if !negative then .integer significand
  else if significand = 0 ∨ 0x8000000000000000 < significand then
    .real (Binary64.ofRatio true significand 1)
  else .integer (-significand)

/-- Reads a number after its sign. -/
def readNumber (negative : Bool) (cs : List Char) : Reading Number :=
  let digits := cs.takeWhile Char.isDigit
  let rest := cs.dropWhile Char.isDigit
  let (significand, count) := absorb 0 digits
  let exponent : Int := digits.length - count
  if digits.isEmpty then .error (if cs.isEmpty then .unfinishedValue else .invalidNumber)
  else if digits.head? = some '0' ∧ 1 < digits.length then .error .invalidNumber
  else
    match rest with
    | '.' :: fraction => readFraction negative significand exponent fraction
    | _ =>
      if exponent = 0 ∧ rest.head? ≠ some 'e' ∧ rest.head? ≠ some 'E' then
        .ok (integerNumber negative significand, rest)
      else readScale negative significand exponent rest

/-- Passes over an exponent, if one is there. -/
def skipExponent (cs : List Char) : Except Fault (List Char) :=
  match cs with
  | [] => .ok []
  | e :: rest =>
    if e ≠ 'e' ∧ e ≠ 'E' then .ok cs
    else
      let digits :=
        match rest with
        | '+' :: digits => digits
        | '-' :: digits => digits
        | digits => digits
      if (digits.takeWhile Char.isDigit).isEmpty then .error .invalidNumber
      else .ok (digits.dropWhile Char.isDigit)

/-- Passes over a number after its sign. Its size does not matter. -/
def skipNumber (cs : List Char) : Except Fault (List Char) :=
  let digits := cs.takeWhile Char.isDigit
  if digits.isEmpty || (digits.head? = some '0' && 1 < digits.length) then .error .invalidNumber
  else
    match cs.dropWhile Char.isDigit with
    | '.' :: fraction =>
      if (fraction.takeWhile Char.isDigit).isEmpty then .error .invalidNumber
      else skipExponent (fraction.dropWhile Char.isDigit)
    | rest => skipExponent rest

end Json

end TypeSketch
