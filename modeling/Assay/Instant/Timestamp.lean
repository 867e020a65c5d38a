import Assay.Instant.Basic
import Assay.Instant.Calendar
import Assay.Number.Reader

/-!
# Timestamps

An instant is written in the form of RFC 3339, in universal time with milliseconds and a closing `Z`.
A year outside `0000` to `9999` has a sign and at least four digits. A timestamp is read with any
offset and any number of decimal places, of which the first nine count; the sixtieth second is a leap
second in every minute.
-/
namespace Assay

namespace Timestamp

/-- A number in decimal, with zeros in front up to a width. -/
def padded (width : Nat) (number : Nat) : List Char :=
  let digits := Nat.toDigits 10 number
  List.replicate (width - digits.length) '0' ++ digits

/-- A year: four digits, or a sign and at least four digits. -/
def yearText (year : Int) : List Char :=
  if 0 ≤ year ∧ year ≤ 9999 then padded 4 year.toNat
  else (if year < 0 then '-' else '+') :: padded 4 year.natAbs

/-- The text of a date. -/
def dayText (date : Day) : List Char :=
  yearText date.year ++ '-' :: padded 2 date.month ++ '-' :: padded 2 date.day

/-- The text of the time of a day, with three decimal places. -/
def timeText (second : Nat) (nanoseconds : Nat) : List Char :=
  padded 2 (second / 3600) ++ ':' :: padded 2 (second / 60 % 60) ++ ':' ::
    padded 2 (second % 60 + nanoseconds / 1000000000) ++ '.' ::
    padded 3 (nanoseconds % 1000000000 / 1000000)

/-- The characters of a timestamp. -/
def chars (instant : Instant) : List Char :=
  dayText (Day.ofNumber (instant.seconds / 86400)) ++ 'T' ::
    timeText (instant.seconds % 86400).toNat instant.nanoseconds ++ ['Z']

/-- The value of a string of digits of a fixed length, if they are digits. -/
def number? (chars : List Char) : Option Nat :=
  if chars.all Numeral.isDigit then some (Numeral.digitsValue chars) else none

/-- The nanoseconds that decimal places write, the places after the ninth dropped. -/
def nanosecondsOf (digits : List Char) : Nat :=
  Numeral.digitsValue (digits.take 9) * Nat.pow 10 (9 - (digits.take 9).length)

/-- The decimal places at the front, as nanoseconds, and what follows them. A point needs a digit. -/
def fraction? : List Char → Option (Nat × List Char)
  | '.' :: rest =>
    let (digits, after) := Numeral.splitDigits rest
    if digits.isEmpty then none else some (nanosecondsOf digits, after)
  | rest => some (0, rest)

/-- The sign of an offset; the mathematical minus counts as minus. -/
def offsetSign? (char : Char) : Option Int :=
  if char = '+' then some 1
  else if char = '-' ∨ char = '\u2212' then some (-1)
  else none

/-- The offset from universal time in seconds, which ends the timestamp. -/
def offset? : List Char → Option Int
  | [zone] => if zone = 'Z' ∨ zone = 'z' then some 0 else none
  | [sign, h1, h2, ':', m1, m2] => do
    let direction ← offsetSign? sign
    let hours ← number? [h1, h2]
    let minutes ← number? [m1, m2]
    if hours ≤ 23 ∧ minutes ≤ 59 then some (direction * (3600 * hours + 60 * minutes)) else none
  | _ => none

/-- Whether a character may stand between the date and the time. -/
def isSeparator (char : Char) : Bool := char == 'T' || char == 't' || char == ' '

/-- The second of the day, if there is one: hours to 23, minutes to 59, seconds to 60. The sixtieth
second counts as the one before it. -/
def secondOfDay? (hour minute second : Nat) : Option Nat :=
  if hour ≤ 23 ∧ minute ≤ 59 ∧ second ≤ 60 then some (3600 * hour + 60 * minute + min second 59)
  else none

/-- Read the characters of a timestamp. -/
def ofChars? : List Char → Option Instant
  | y1 :: y2 :: y3 :: y4 :: '-' :: mo1 :: mo2 :: '-' :: d1 :: d2 :: separator ::
      h1 :: h2 :: ':' :: mi1 :: mi2 :: ':' :: s1 :: s2 :: rest => do
    let year ← number? [y1, y2, y3, y4]
    let month ← number? [mo1, mo2]
    let day ← number? [d1, d2]
    let hour ← number? [h1, h2]
    let minute ← number? [mi1, mi2]
    let second ← number? [s1, s2]
    let date : Day := ⟨year, month, day⟩
    let time ← secondOfDay? hour minute second
    let (nanoseconds, zone) ← fraction? rest
    let offset ← offset? zone
    if date.isValid && isSeparator separator then
      some ⟨date.number * 86400 + time - offset,
        nanoseconds + if second = 60 then 1000000000 else 0⟩
    else none
  | _ => none

end Timestamp

namespace Instant

/-- The instant as a timestamp. -/
def toText (instant : Instant) : String := String.ofList (Timestamp.chars instant)

/-- The instant that a timestamp denotes. -/
def ofText? (text : String) : Option Instant := Timestamp.ofChars? text.toList

end Instant

end Assay
