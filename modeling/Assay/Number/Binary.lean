/-!
# Doubles as exact numbers

A finite double is a whole mantissa times a power of two. `Binary.ofFloat?` reads that form off the
bits. `Precision.round` goes from an exact fraction to the nearest mantissa and exponent, a half
going to the even mantissa, and `Binary.nearest` writes that answer as a double. All of it is
arithmetic on natural numbers and integers, so a statement about a double becomes a statement about
its mantissa and exponent.
-/
namespace Assay

/-- A finite double: the mantissa times two to the exponent, negated if `negative` holds. -/
structure Binary where
  /-- The sign bit, which zero has as well. -/
  negative : Bool
  /-- The whole number that the exponent scales. -/
  mantissa : Nat
  /-- The power of two. -/
  exponent : Int

/-- A floating-point format: its mantissas have at most `digits` binary digits, its exponents lie
between `least` and `greatest`. -/
structure Precision where
  /-- Number of binary digits of a mantissa. -/
  digits : Nat
  /-- Exponent of the smallest numbers. -/
  least : Int
  /-- Exponent of the largest numbers. -/
  greatest : Int

namespace Precision

/-- The 64-bit format. -/
def double : Precision := ⟨53, -1074, 971⟩

/-- The 32-bit format. -/
def single : Precision := ⟨24, -149, 104⟩

/-- The exponent that gives a positive fraction a mantissa of all digits, or the least exponent. -/
def exponentFor (precision : Precision) (numerator denominator : Nat) : Int :=
  let guess : Int := (numerator.log2 : Int) - denominator.log2 - (precision.digits - 1)
  let tooLarge :=
    numerator * Nat.pow 2 (-guess).toNat <
      Nat.pow 2 (precision.digits - 1) * (denominator * Nat.pow 2 guess.toNat)
  max precision.least (if tooLarge then guess - 1 else guess)

/-- The whole number nearest to a fraction, a half going to the even neighbour. -/
def roundHalfEven (numerator denominator : Nat) : Nat :=
  let quotient := numerator / denominator
  let rest := numerator % denominator
  if denominator < 2 * rest ∨ (denominator = 2 * rest ∧ quotient % 2 = 1) then quotient + 1
  else quotient

/-- The mantissa and exponent nearest to a positive fraction, or nothing if the fraction lies beyond
the largest number of the format. -/
def round (precision : Precision) (numerator denominator : Nat) : Option (Nat × Int) :=
  let exponent := precision.exponentFor numerator denominator
  let mantissa :=
    roundHalfEven (numerator * Nat.pow 2 (-exponent).toNat) (denominator * Nat.pow 2 exponent.toNat)
  let (mantissa, exponent) :=
    if mantissa = Nat.pow 2 precision.digits then (Nat.pow 2 (precision.digits - 1), exponent + 1)
    else (mantissa, exponent)
  if precision.greatest < exponent then none else some (mantissa, exponent)

end Precision

namespace Binary

/-- The exact form of a finite double; an infinity and a number that is none have no such form. -/
def ofFloat? (number : Float) : Option Binary :=
  let bits := number.toBits.toNat
  let negative := decide (Nat.pow 2 63 ≤ bits)
  let field : Nat := bits / Nat.pow 2 52 % Nat.pow 2 11
  let fraction : Nat := bits % Nat.pow 2 52
  if field = 2047 then none
  else if field = 0 then some ⟨negative, fraction, -1074⟩
  else some ⟨negative, fraction + Nat.pow 2 52, (field : Int) - 1075⟩

/-- The integer that is the number, if the number is whole. -/
def toInt? (binary : Binary) : Option Int :=
  let scale := Nat.pow 2 (-binary.exponent).toNat
  let size := binary.mantissa * Nat.pow 2 binary.exponent.toNat
  if size % scale = 0 then
    some (if binary.negative then -((size / scale : Nat) : Int) else (size / scale : Nat))
  else none

/-- The integer left when the digits after the point are dropped. -/
def truncate (binary : Binary) : Int :=
  let size := binary.mantissa * Nat.pow 2 binary.exponent.toNat / Nat.pow 2 (-binary.exponent).toNat
  if binary.negative then -(size : Int) else size

/-- The bits of positive infinity. -/
def infinityBits : Nat := 2047 * Nat.pow 2 52

/-- The double with the given sign and bits below the sign. -/
def ofSignedBits (negative : Bool) (bits : Nat) : Float :=
  Float.ofBits (UInt64.ofNat (bits + if negative then Nat.pow 2 63 else 0))

/-- The bits below the sign of the double nearest to a fraction. A full mantissa has its leading
digit counted into the exponent field, so one sum serves all sizes. -/
def nearestBits (numerator denominator : Nat) : Nat :=
  if numerator = 0 then 0
  else match Precision.double.round numerator denominator with
    | none => infinityBits
    | some (mantissa, exponent) => (exponent + 1074).toNat * Nat.pow 2 52 + mantissa

/-- The double nearest to a fraction of natural numbers, with the given sign. -/
def nearest (negative : Bool) (numerator denominator : Nat) : Float :=
  ofSignedBits negative (nearestBits numerator denominator)

/-- The double nearest to an integer. -/
def nearestInt (integer : Int) : Float := nearest (decide (integer < 0)) integer.natAbs 1

/-- The fraction that a mantissa and an exponent stand for. -/
def fraction (mantissa : Nat) (exponent : Int) : Nat × Nat :=
  (mantissa * Nat.pow 2 exponent.toNat, Nat.pow 2 (-exponent).toNat)

/-- The double nearest to what is nearest to a fraction among the 32-bit numbers. -/
def nearestSingle (negative : Bool) (numerator denominator : Nat) : Float :=
  if numerator = 0 then ofSignedBits negative 0
  else match Precision.single.round numerator denominator with
    | none => ofSignedBits negative infinityBits
    | some (mantissa, exponent) =>
      let (top, bottom) := fraction mantissa exponent
      nearest negative top bottom

end Binary

/-- Whether a number is neither infinite nor undefined. -/
def isFiniteNumber (number : Float) : Bool := (Binary.ofFloat? number).isSome

/-- The integer that a number is, if it is a finite whole number. -/
def wholeNumber? (number : Float) : Option Int := (Binary.ofFloat? number).bind Binary.toInt?

end Assay
