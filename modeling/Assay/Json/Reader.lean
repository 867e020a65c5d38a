import Assay.Json.Basic
import Assay.Number.Reader

/-!
# Reading JSON

The text of a document. A number without a point and an exponent is a whole number if it lies in the
range of 64-bit words, signed or not; any other number, and the negative zero, is the nearest double.
A pair of escapes for surrogates is one character.
-/
namespace Assay

namespace JsonReader

/-- The blanks that may stand between the parts of a document. -/
def isSpace (char : Char) : Bool := [' ', '\t', '\n', '\r'].contains char

/-- The text from the first part of a document on. -/
def skipSpace (chars : List Char) : List Char := chars.dropWhile isSpace

/-- The value of a hexadecimal digit. -/
def hexDigit? (char : Char) : Option Nat :=
  if '0' ≤ char ∧ char ≤ '9' then some (char.toNat - '0'.toNat)
  else if 'a' ≤ char ∧ char ≤ 'f' then some (char.toNat - 'a'.toNat + 10)
  else if 'A' ≤ char ∧ char ≤ 'F' then some (char.toNat - 'A'.toNat + 10)
  else none

/-- The value of hexadecimal digits. -/
def hexNumber? (digits : List Char) : Option Nat :=
  digits.foldlM (fun value char => (hexDigit? char).map (16 * value + ·)) 0

/-- The character that a backslash and a letter stand for. -/
def escaped? : Char → Option Char
  | '"' => some '"'
  | '\\' => some '\\'
  | '/' => some '/'
  | 'b' => some '\x08'
  | 'f' => some '\x0c'
  | 'n' => some '\n'
  | 'r' => some '\r'
  | 't' => some '\t'
  | _ => none

/-- The character of a pair of surrogates. -/
def joined? (high low : Nat) : Option Char :=
  if 0xd800 ≤ high ∧ high < 0xdc00 ∧ 0xdc00 ≤ low ∧ low < 0xe000 then
    some (Char.ofNat (0x10000 + (high - 0xd800) * 1024 + (low - 0xdc00)))
  else none

/-- The characters of a text up to its closing quote, and what follows it. -/
def textChars : List Char → Option (List Char × List Char)
  | [] => none
  | '"' :: rest => some ([], rest)
  | '\\' :: 'u' :: a :: b :: c :: d :: '\\' :: 'u' :: e :: f :: g :: h :: rest => do
    let first ← hexNumber? [a, b, c, d]
    let second ← hexNumber? [e, f, g, h]
    let (others, after) ← textChars rest
    match joined? first second with
    | some char => some (char :: others, after)
    | none => some (Char.ofNat first :: Char.ofNat second :: others, after)
  | '\\' :: 'u' :: a :: b :: c :: d :: rest => do
    let code ← hexNumber? [a, b, c, d]
    let (others, after) ← textChars rest
    some (Char.ofNat code :: others, after)
  | '\\' :: letter :: rest => do
    let char ← escaped? letter
    let (others, after) ← textChars rest
    some (char :: others, after)
  | char :: rest => do
    let (others, after) ← textChars rest
    some (char :: others, after)

/-- Whether a character can belong to a number. -/
def isNumberChar (char : Char) : Bool :=
  Numeral.isDigit char || ['+', '-', '.', 'e', 'E'].contains char

/-- The whole number that a text writes, if that is in range and not the negative zero. -/
def whole? (text : String) : Option Int :=
  text.toInt?.filter fun value =>
    decide (-(Nat.pow 2 63 : Int) ≤ value ∧ value < Nat.pow 2 64) && text != "-0"

/-- A number. -/
def number? (text : String) : Option Json :=
  match whole? text with
  | some value => some (.integer value)
  | none => (Numeral.read? text).map .decimal

mutual

/-- A document at the front, and what follows it. -/
def document : Nat → List Char → Option (Json × List Char)
  | 0, _ => none
  | fuel + 1, chars =>
    match skipSpace chars with
    | 'n' :: 'u' :: 'l' :: 'l' :: rest => some (.null, rest)
    | 't' :: 'r' :: 'u' :: 'e' :: rest => some (.bool true, rest)
    | 'f' :: 'a' :: 'l' :: 's' :: 'e' :: rest => some (.bool false, rest)
    | '"' :: rest => (textChars rest).map fun (text, rest) => (.string (String.ofList text), rest)
    | '[' :: rest =>
      match skipSpace rest with
      | ']' :: rest => some (.array [], rest)
      | rest => (items fuel rest).map fun (items, rest) => (.array items, rest)
    | '\x7b' :: rest =>
      match skipSpace rest with
      | '\x7d' :: rest => some (.object [], rest)
      | rest => (fields fuel rest).map fun (fields, rest) => (.object fields, rest)
    | rest => do
      let number ← number? (String.ofList (rest.takeWhile isNumberChar))
      some (number, rest.dropWhile isNumberChar)

/-- The items of a list up to its end, and what follows it. -/
def items : Nat → List Char → Option (List Json × List Char)
  | 0, _ => none
  | fuel + 1, chars => do
    let (item, rest) ← document fuel chars
    match skipSpace rest with
    | ',' :: rest =>
      let (others, rest) ← items fuel rest
      some (item :: others, rest)
    | ']' :: rest => some ([item], rest)
    | _ => none

/-- The fields of an object up to its end, and what follows it. -/
def fields : Nat → List Char → Option (List (String × Json) × List Char)
  | 0, _ => none
  | fuel + 1, chars =>
    match skipSpace chars with
    | '"' :: rest => do
      let (key, rest) ← textChars rest
      match skipSpace rest with
      | ':' :: rest =>
        let (value, rest) ← document fuel rest
        match skipSpace rest with
        | ',' :: rest =>
          let (others, rest) ← fields fuel rest
          some ((String.ofList key, value) :: others, rest)
        | '\x7d' :: rest => some ([(String.ofList key, value)], rest)
        | _ => none
      | _ => none
    | _ => none

end

end JsonReader

/-- The document that a text writes. Every step of the reader takes a character, so a step for each
character suffices. -/
def Json.ofText? (text : String) : Option Json :=
  match JsonReader.document (text.length + 1) text.toList with
  | some (document, rest) => if (JsonReader.skipSpace rest).isEmpty then some document else none
  | none => none

end Assay
