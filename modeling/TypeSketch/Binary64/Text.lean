import TypeSketch.Binary64.Basic

/-!
# Decimal Text of Double-Precision Numbers

A finite number is written with the fewest digits that read back as the same
number, and of two candidates with the fewest digits the nearer one is written.

There are two notations. The plain text is always positional, has no fraction if
the number is whole, and takes the larger of two equally near candidates. The
pointed text always has a point or an exponent, is positional between `1e-5` and
`1e16` only, and takes the even one of two equally near candidates.

The digits are found on decimal grids. On the grid of step `10 ^ k` only the two
neighbours of the number can lie in the interval of reals that round to it, so
one grid after another is tested, from one digit to seventeen, and the first hit
wins. Seventeen digits always suffice.

## Main definitions

* `Binary64.rounding`: The interval of reals that round to a number.
* `Binary64.shortest`: The digits and the power of ten of the shortest decimal.
* `Binary64.text`, `Binary64.pointedText`: The two texts of a number.
* `Binary64.ofText?`: The number that a text denotes.
-/

namespace TypeSketch

namespace Binary64

/-- The interval of reals that round to a positive number: its ends over a common
    denominator, and whether they belong to it. -/
structure Rounding where
  low : Nat
  middle : Nat
  high : Nat
  den : Nat
  closed : Bool
deriving Repr

/-- The interval of a finite number that is not zero. Half-way points belong to it
    if its significand is even. Below a power of two the numbers lie twice as close. -/
def rounding (x : Binary64) : Rounding :=
  let m := x.significand
  -- All is counted in quarters of the last place, so that half-way points are naturals.
  let below := if x.fraction = 0 ∧ 1 < x.biasedExponent then 1 else 2
  let (scale, den) :=
    if 2 ≤ x.exponent then (Nat.pow 2 (x.exponent - 2).toNat, 1)
    else (1, Nat.pow 2 (2 - x.exponent).toNat)
  ⟨(4 * m - below) * scale, 4 * m * scale, (4 * m + 2) * scale, den, m % 2 = 0⟩

/-- The number of decimal digits of a natural. -/
def digitCount (n : Nat) : Nat :=
  (Nat.toDigits 10 n).length

/-- The largest power of ten that is at most `num / den`. -/
def decimalExponent (num den : Nat) : Int :=
  if den ≤ num then (digitCount (num / den) : Int) - 1
  else -(digitCount ((den + num - 1) / num - 1) : Int)

/-- `num / den` over the power of ten `10 ^ exponent`, as a quotient. -/
def overPowerOfTen (num den : Nat) (exponent : Int) : Nat × Nat :=
  if 0 ≤ exponent then (num, den * Nat.pow 10 exponent.toNat)
  else (num * Nat.pow 10 (-exponent).toNat, den)

/-- Whether `point * 10 ^ exponent` lies in the interval. -/
def Rounding.contains (r : Rounding) (point : Nat) (exponent : Int) : Bool :=
  let (scale, den) : Nat × Nat :=
    if 0 ≤ exponent then (Nat.pow 10 exponent.toNat, 1) else (1, Nat.pow 10 (-exponent).toNat)
  let value := point * scale * r.den
  if r.closed then r.low * den ≤ value && value ≤ r.high * den
  else r.low * den < value && value < r.high * den

/-- Which of two equally near candidates is written. -/
inductive Tie where
  | larger
  | even
deriving Repr, DecidableEq

/-- Whether the tie between `lower` and its successor goes to `lower`. -/
def Tie.takesLower (tie : Tie) (lower : Nat) : Bool :=
  tie = .even && lower % 2 = 0

/-- The point of the grid of step `10 ^ exponent` that reads back, if there is one,
    and the nearer of two. -/
def Rounding.gridPoint? (r : Rounding) (tie : Tie) (exponent : Int) : Option Nat :=
  let (num, den) := overPowerOfTen r.middle r.den exponent
  let lower := num / den
  match r.contains lower exponent, r.contains (lower + 1) exponent with
  | true, true =>
    let twice := 2 * (num % den)
    some (if twice < den || (twice = den && tie.takesLower lower) then lower else lower + 1)
  | true, false => some lower
  | false, true => some (lower + 1)
  | false, false => none

/-- The shortest decimal `digits * 10 ^ exponent` of a finite number that is not
    zero. -/
def shortest (tie : Tie) (x : Binary64) : Nat × Int :=
  let r := x.rounding
  let leading := decimalExponent r.middle r.den
  -- Seventeen digits always read back, so the search ends with a point.
  let found := (List.range 17).findSome? fun (further : Nat) =>
    let step := leading - (further : Int)
    (r.gridPoint? tie step).map fun point => (point, step)
  found.getD (0, 0)

/-- The decimal `digits * 10 ^ exponent` in positional notation. The zeros at the
    end of the digits are no part of a fraction. -/
def positional (digits : Nat) (exponent : Int) : String :=
  let shown := Nat.toDigits 10 digits
  if 0 ≤ exponent then String.ofList (shown ++ List.replicate exponent.toNat '0')
  else
    let places := (-exponent).toNat
    let padded := List.replicate (places + 1 - shown.length) '0' ++ shown
    let whole := padded.take (padded.length - places)
    let fraction := padded.drop (padded.length - places)
    let significant := (fraction.reverse.dropWhile (· = '0')).reverse
    if significant.isEmpty then String.ofList whole
    else String.ofList (whole ++ '.' :: significant)

/-- The text of a number. -/
def text (x : Binary64) : String :=
  if x.isNaN then "NaN"
  else
    let sign := if x.isNegative then "-" else ""
    if x.isInfinite then sign ++ "inf"
    else if x.isZero then sign ++ "0"
    else
      let (digits, exponent) := x.shortest .larger
      sign ++ positional digits exponent

/-- The decimal with a point or an exponent in every case. The digits end in no
    zero, and `places` is the number of places before the point. -/
def pointed (digits : List Char) (exponent : Int) : String :=
  let places : Int := digits.length + exponent
  if 0 ≤ exponent ∧ places ≤ 16 then
    String.ofList (digits ++ List.replicate exponent.toNat '0') ++ ".0"
  else if 0 < places ∧ places ≤ 16 then
    String.ofList (digits.take places.toNat ++ '.' :: digits.drop places.toNat)
  else if -5 < places ∧ places ≤ 0 then
    String.ofList ('0' :: '.' :: List.replicate (-places).toNat '0' ++ digits)
  else
    let significand :=
      match digits with
      | [d] => [d]
      | [] => []
      | d :: rest => d :: '.' :: rest
    String.ofList significand ++ "e" ++ toString (places - 1)

/-- The pointed text of a finite number. -/
def pointedText (x : Binary64) : String :=
  let sign := if x.isNegative then "-" else ""
  if x.isZero then sign ++ "0.0"
  else
    let (digits, exponent) := x.shortest .even
    let shown := (Nat.toDigits 10 digits).reverse
    let significant := (shown.dropWhile (· = '0')).reverse
    sign ++ pointed significant (exponent + (shown.length - significant.length : Nat))

/-- The value of a list of decimal digits that follow `before`. -/
def digitsValue (before : Nat) (cs : List Char) : Nat :=
  cs.foldl (fun n c => n * 10 + (c.toNat - '0'.toNat)) before

/-- The exponent after an `e`, with its sign; absent text stands for zero. -/
def exponentOfText? : List Char → Option Int
  | [] => some 0
  | e :: rest =>
    if e ≠ 'e' ∧ e ≠ 'E' then none
    else
      let (negative, digits) : Bool × List Char :=
        match rest with
        | '-' :: digits => (true, digits)
        | '+' :: digits => (false, digits)
        | digits => (false, digits)
      if digits.isEmpty || !digits.all Char.isDigit then none
      else if negative then some (-(digitsValue 0 digits : Int)) else some (digitsValue 0 digits)

/-- The number nearest to the decimal number that `cs` writes. An exponent far
    outside the format is as good as one just outside. -/
def magnitudeOfText? (negative : Bool) (cs : List Char) : Option Binary64 :=
  let whole := cs.takeWhile Char.isDigit
  let (fraction, rest) : List Char × List Char :=
    match cs.dropWhile Char.isDigit with
    | '.' :: rest => (rest.takeWhile Char.isDigit, rest.dropWhile Char.isDigit)
    | rest => ([], rest)
  if whole.isEmpty && fraction.isEmpty then none
  else
    (exponentOfText? rest).map fun (exponent : Int) =>
      let digits := digitsValue (digitsValue 0 whole) fraction
      let scale : Int := exponent - fraction.length
      let bound : Int := 400 + whole.length + fraction.length
      ofDecimal negative digits (max (-bound) (min bound scale))

/-- The number that a text denotes: a decimal number with an optional sign, point
    and exponent, or the name of a number that is not finite. -/
def ofText? (s : String) : Option Binary64 :=
  match s.toList with
  | '-' :: cs => read? true cs
  | '+' :: cs => read? false cs
  | cs => read? false cs
where
  /-- The number with this sign whose magnitude `cs` writes. -/
  read? (negative : Bool) (cs : List Char) : Option Binary64 :=
    if cs = "NaN".toList then some nan
    else if cs = "inf".toList then some (infinity negative)
    else magnitudeOfText? negative cs

end Binary64

end TypeSketch
