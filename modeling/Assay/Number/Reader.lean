import Assay.Number.Decimal

/-!
# Reading numbers

The grammar is an optional sign followed by `inf`, `infinity` or `nan` in any letter case, or by
digits with an optional point, a digit on at least one side of it, and an optional exponent of at
least one digit. Nothing may stand around it. The value is the double nearest to the decimal that is
written; one too large for the format is infinite.
-/
namespace Assay

namespace Numeral

/-- An ASCII digit. -/
def isDigit (char : Char) : Bool := decide ('0' ≤ char ∧ char ≤ '9')

/-- The value of a digit character. -/
def digitValue (char : Char) : Nat := char.toNat - '0'.toNat

/-- The number that a string of digits writes. -/
def digitsValue (digits : List Char) : Nat :=
  digits.foldl (fun value char => 10 * value + digitValue char) 0

/-- A sign at the front, and what follows it; no sign counts as plus. -/
def splitSign : List Char → Bool × List Char
  | '-' :: rest => (true, rest)
  | '+' :: rest => (false, rest)
  | chars => (false, chars)

/-- The digits at the front, and what follows them. -/
def splitDigits (chars : List Char) : List Char × List Char :=
  (chars.takeWhile isDigit, chars.dropWhile isDigit)

/-- The exponent that the characters after the digits write: none at all is zero, and otherwise
there is a mark, an optional sign and digits to the end. -/
def exponent? : List Char → Option Int
  | [] => some 0
  | mark :: rest =>
    if mark = 'e' ∨ mark = 'E' then
      let (negative, digits) := splitSign rest
      if digits.isEmpty || !digits.all isDigit then none
      else some (if negative then -(digitsValue digits : Int) else digitsValue digits)
    else none

/-- A decimal as it is written: its digits as one number and its power of ten. -/
def decimal? (chars : List Char) : Option Decimal :=
  let (whole, rest) := splitDigits chars
  let (part, rest) :=
    match rest with
    | '.' :: after => splitDigits after
    | _ => ([], rest)
  if whole.isEmpty && part.isEmpty then none
  else (exponent? rest).map fun exponent =>
    ⟨digitsValue (whole ++ part), exponent - part.length⟩

/-- The fraction that a decimal stands for. Far beyond the range of doubles the power of ten is cut
off, which changes neither an infinite nor a vanishing value. -/
def fraction (decimal : Decimal) : Nat × Nat :=
  let size : Int := Decimal.digitCount decimal.digits
  if decimal.digits = 0 then (0, 1)
  else if 400 < size + decimal.exponent then (Nat.pow 10 400, 1)
  else if size + decimal.exponent < -400 then (1, Nat.pow 10 400)
  else (decimal.digits * Nat.pow 10 decimal.exponent.toNat, Nat.pow 10 (-decimal.exponent).toNat)

/-- The words that stand for values outside the decimals. -/
inductive Word where
  /-- An infinity. -/
  | infinite
  /-- The undefined number. -/
  | undefined

/-- The word that the characters spell, letter case aside. -/
def word? (chars : List Char) : Option Word :=
  let spelled := chars.map Char.toLower
  if spelled = "inf".toList ∨ spelled = "infinity".toList then some .infinite
  else if spelled = "nan".toList then some .undefined
  else none

/-- Read a numeral with a given way of rounding a signed fraction. -/
def readWith? (round : Bool → Nat → Nat → Float) (text : String) : Option Float :=
  let (negative, chars) := splitSign text.toList
  match word? chars with
  | some .infinite => some (Binary.ofSignedBits negative Binary.infinityBits)
  | some .undefined => some (Binary.ofSignedBits negative (Binary.infinityBits + Nat.pow 2 51))
  | none => (decimal? chars).map fun decimal =>
    let (numerator, denominator) := fraction decimal
    round negative numerator denominator

/-- The double that a text writes. -/
def read? (text : String) : Option Float := readWith? Binary.nearest text

/-- The double of the 32-bit number that a text writes. -/
def readSingle? (text : String) : Option Float := readWith? Binary.nearestSingle text

end Numeral

end Assay
