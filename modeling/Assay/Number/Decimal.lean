import Assay.Number.Binary

/-!
# Decimal text of doubles

The text of a double has the fewest digits that read back as that double, and of the digit strings
of that length the one nearest to it. `Decimal.shortest` finds the digits by exact arithmetic: for one
digit, two digits and so on it tests the two neighbours of the number on the decimal grid of that many
digits against the interval of reals that round to the number.

There are two texts with these digits. `numberText` is always positional: no exponent, and no point
after a whole number; a tie between two digit strings goes up. `pointedText` tells a double from an
integer: it always has a point or an exponent. It is positional from the fifth decimal place up to
sixteen places before the point, and a tie goes to the even digit.
-/
namespace Assay

/-- Which of two neighbours a number half way between them goes to. -/
inductive Tie where
  /-- The larger one. -/
  | up
  /-- The even one. -/
  | even
deriving DecidableEq

/-- Whether a number half way above a natural number goes down to it. -/
def Tie.goesDown (tie : Tie) (below : Nat) : Bool :=
  match tie with
  | up => false
  | even => below % 2 == 0

/-- A positive decimal number: `digits` times ten to the `exponent`. -/
structure Decimal where
  /-- The significant digits as one number. -/
  digits : Nat
  /-- The power of ten. -/
  exponent : Int

namespace Decimal

/-- How many digits the decimal text of a natural number has. -/
def digitCount (number : Nat) : Nat := (Nat.toDigits 10 number).length

/-- The reals that round to a double, over one denominator: the double itself, the two ends, and
whether the ends belong to the interval. -/
structure Interval where
  /-- Numerator of the double. -/
  center : Nat
  /-- Numerator of the lower end. -/
  lower : Nat
  /-- Numerator of the upper end. -/
  upper : Nat
  /-- Common denominator. -/
  denominator : Nat
  /-- Whether the two ends round to the double. -/
  closed : Bool

/-- The interval of a positive double. The gap below a power of two is half the gap above it, and a
half rounds to the even mantissa. -/
def Interval.ofBinary (mantissa : Nat) (exponent : Int) : Interval :=
  let scale := Nat.pow 2 exponent.toNat
  let below := if mantissa = Nat.pow 2 52 ∧ -1074 < exponent then 1 else 2
  { center := 4 * mantissa * scale
    lower := (4 * mantissa - below) * scale
    upper := (4 * mantissa + 2) * scale
    denominator := 4 * Nat.pow 2 (-exponent).toNat
    closed := mantissa % 2 == 0 }

/-- The power of ten of the first digit. -/
def Interval.leadingExponent (interval : Interval) : Int :=
  if interval.denominator ≤ interval.center then
    (digitCount (interval.center / interval.denominator) : Int) - 1
  else -(digitCount ((interval.denominator - 1) / interval.center) : Int)

/-- Factors that bring a point of the grid of `10 ^ exponent` and the interval to one scale. -/
def gridFactors (interval : Interval) (exponent : Int) : Nat × Nat :=
  (Nat.pow 10 exponent.toNat * interval.denominator, Nat.pow 10 (-exponent).toNat)

/-- Whether a point of the grid of `10 ^ exponent` lies in the interval. -/
def Interval.contains (interval : Interval) (exponent : Int) (point : Nat) : Bool :=
  let (left, right) := gridFactors interval exponent
  if interval.closed then
    decide (interval.lower * right ≤ point * left ∧ point * left ≤ interval.upper * right)
  else decide (interval.lower * right < point * left ∧ point * left < interval.upper * right)

/-- The point of the grid of `10 ^ exponent` that lies in the interval nearest to its center, if
there is one. -/
def Interval.gridPoint? (tie : Tie) (interval : Interval) (exponent : Int) : Option Nat :=
  let (left, right) := gridFactors interval exponent
  let below := interval.center * right / left
  match interval.contains exponent below, interval.contains exponent (below + 1) with
  | true, true =>
    let doubled := 2 * (interval.center * right)
    let middle := (2 * below + 1) * left
    some (if doubled < middle ∨ (doubled = middle ∧ tie.goesDown below) then below else below + 1)
  | true, false => some below
  | false, true => some (below + 1)
  | false, false => none

/-- The same number without one closing zero. A point found on the shortest grid has a closing zero
only if it is ten, when the number lies just below a power of ten. -/
def reduce (decimal : Decimal) : Decimal :=
  if decimal.digits % 10 = 0 then ⟨decimal.digits / 10, decimal.exponent + 1⟩ else decimal

/-- The shortest decimal that reads back as a positive double, and the nearest of these. Seventeen
digits always suffice. -/
def shortest (tie : Tie) (mantissa : Nat) (exponent : Int) : Decimal :=
  let interval := Interval.ofBinary mantissa exponent
  let leading := interval.leadingExponent
  let found := (List.range 17).findSome? fun (count : Nat) =>
    (interval.gridPoint? tie (leading - count)).map fun point => Decimal.mk point (leading - count)
  (found.getD ⟨0, 0⟩).reduce

/-- The positional text: zeros fill up to the point, and a point stands only before digits. -/
def positionalText (decimal : Decimal) : List Char :=
  let digits := Nat.toDigits 10 decimal.digits
  let point : Int := digits.length + decimal.exponent
  if 0 ≤ decimal.exponent then digits ++ List.replicate decimal.exponent.toNat '0'
  else if 0 < point then digits.take point.toNat ++ '.' :: digits.drop point.toNat
  else '0' :: '.' :: List.replicate (-point).toNat '0' ++ digits

/-- The power of ten of the first digit. -/
def place (decimal : Decimal) : Int := (digitCount decimal.digits : Int) - 1 + decimal.exponent

/-- The text with an exponent: the first digit, a point before further digits, and the signed power of
ten of the first digit. -/
def exponentText (decimal : Decimal) : List Char :=
  let digits := Nat.toDigits 10 decimal.digits
  let further := digits.drop 1
  let sign := if decimal.place < 0 then '-' else '+'
  digits.take 1 ++ (if further.isEmpty then [] else '.' :: further) ++ 'e' :: sign ::
    Nat.toDigits 10 decimal.place.natAbs

/-- The text that is told from the text of an integer. Whole numbers have a zero after the point. -/
def pointedText (decimal : Decimal) : List Char :=
  if decimal.place < -5 ∨ 16 ≤ decimal.place then decimal.exponentText
  else if 0 ≤ decimal.exponent then decimal.positionalText ++ ['.', '0']
  else decimal.positionalText

end Decimal

namespace Binary

/-- The text of a finite double, given the texts of zero and of a positive decimal. -/
def textWith (tie : Tie) (zero : List Char) (text : Decimal → List Char) (binary : Binary) : String :=
  let size :=
    if binary.mantissa = 0 then zero
    else text (Decimal.shortest tie binary.mantissa binary.exponent)
  String.ofList (if binary.negative then '-' :: size else size)

end Binary

/-- The text of a number that is not finite. -/
def boundlessText (number : Float) : String :=
  if number.isNaN then "NaN" else if number < 0 then "-inf" else "inf"

/-- The text of a number: `NaN`, `inf`, `-inf`, or the shortest positional decimal. -/
def numberText (number : Float) : String :=
  match Binary.ofFloat? number with
  | some binary => binary.textWith .up ['0'] Decimal.positionalText
  | none => boundlessText number

/-- The text of a number that is told from the text of an integer. -/
def pointedText (number : Float) : String :=
  match Binary.ofFloat? number with
  | some binary => binary.textWith .even ['0', '.', '0'] Decimal.pointedText
  | none => boundlessText number

end Assay
