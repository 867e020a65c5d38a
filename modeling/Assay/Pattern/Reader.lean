import Assay.Number.Reader
import Assay.Pattern.Basic

/-!
# Reading patterns

The notation has characters, `.` for any character in a line, sets in square brackets, groups,
alternatives with `|`, the repetitions `?`, `*`, `+` and counts in braces, each perhaps with a question
mark after it, and `^` and `$` for the ends of the text. A backslash takes the next character as it is.
-/
namespace Assay

namespace PatternReader

/-- The characters of a set up to its closing bracket, each with whether it stands after a backslash,
and what follows the bracket. -/
def setChars : List Char → Option (List (Char × Bool) × List Char)
  | [] => none
  | ']' :: rest => some ([], rest)
  | '\\' :: char :: rest => (setChars rest).map fun found => ((char, true) :: found.1, found.2)
  | char :: rest => (setChars rest).map fun found => ((char, false) :: found.1, found.2)

/-- The ranges that the characters of a set write. A hyphen between two characters makes a range of
them unless it stands after a backslash. -/
def setRanges : List (Char × Bool) → List (Char × Char)
  | [] => []
  | (first, _) :: ('-', false) :: (last, _) :: rest => (first, last) :: setRanges rest
  | (char, _) :: rest => (char, char) :: setRanges rest

/-- A set after its opening bracket, and what follows it. Hyphens that come first are characters of the
set, and so is a closing bracket that comes first. -/
def charSet (chars : List Char) : Option (CharSet × List Char) :=
  let (negated, chars) := match chars with
    | '^' :: rest => (true, rest)
    | _ => (false, chars)
  let leading := match chars with
    | ']' :: _ => [']']
    | _ => chars.takeWhile (· == '-')
  (setChars (chars.drop leading.length)).map fun found =>
    (⟨leading.map (fun char => (char, char)) ++ setRanges found.1, negated⟩, found.2)

/-- What follows a repetition. A question mark after it asks for as few times as can be, which changes
nothing in whether a pattern is found. -/
def afterRepetition : List Char → List Char
  | '?' :: rest => rest
  | rest => rest

/-- The count of a repetition after its opening brace, and what follows it. -/
def count (pattern : Pattern) (chars : List Char) : Option (Pattern × List Char) :=
  let (least, rest) := Numeral.splitDigits chars
  if least.isEmpty then none
  else match rest with
    | '\x7d' :: rest => some (pattern.times (Numeral.digitsValue least) 0, rest)
    | ',' :: '\x7d' :: rest =>
      some (.seq (pattern.times (Numeral.digitsValue least) 0) (.star pattern), rest)
    | ',' :: rest =>
      let (most, rest) := Numeral.splitDigits rest
      match most.isEmpty, rest with
      | false, '\x7d' :: rest =>
        let least := Numeral.digitsValue least
        some (pattern.times least (Numeral.digitsValue most - least), rest)
      | _, _ => none
    | _ => none

mutual

/-- Alternatives, and what follows them. -/
def alternatives : Nat → List Char → Option (Pattern × List Char)
  | 0, _ => none
  | fuel + 1, chars => do
    let (first, rest) ← items fuel chars
    match rest with
    | '|' :: rest =>
      let (second, rest) ← alternatives fuel rest
      some (.alt first second, rest)
    | rest => some (first, rest)

/-- Items one after the other, up to the end of their group. -/
def items : Nat → List Char → Option (Pattern × List Char)
  | 0, _ => none
  | fuel + 1, chars =>
    match chars with
    | [] => some (.empty, [])
    | '|' :: _ => some (.empty, chars)
    | ')' :: _ => some (.empty, chars)
    | _ => do
      let (item, rest) ← item fuel chars
      let (item, rest) ← repeated fuel item rest
      let (others, rest) ← items fuel rest
      some (.seq item others, rest)

/-- One item without its repetition. -/
def item : Nat → List Char → Option (Pattern × List Char)
  | 0, _ => none
  | fuel + 1, chars =>
    match chars with
    | [] => none
    | '^' :: rest => some (.start, rest)
    | '$' :: rest => some (.finish, rest)
    | '.' :: rest => some (.ofSet .anyInLine, rest)
    | '\\' :: char :: rest => some (.ofSet (.single char), rest)
    | '[' :: rest => (charSet rest).map fun found => (.ofSet found.1, found.2)
    | '(' :: rest => do
      let (inner, rest) ← alternatives fuel (match rest with | '?' :: ':' :: rest => rest | _ => rest)
      match rest with
      | ')' :: rest => some (inner, rest)
      | _ => none
    | char :: rest => some (.ofSet (.single char), rest)

/-- An item with the repetitions that follow it. -/
def repeated : Nat → Pattern → List Char → Option (Pattern × List Char)
  | 0, _, _ => none
  | fuel + 1, pattern, chars =>
    match chars with
    | '?' :: rest => repeated fuel pattern.optional (afterRepetition rest)
    | '*' :: rest => repeated fuel (.star pattern) (afterRepetition rest)
    | '+' :: rest => repeated fuel pattern.plus (afterRepetition rest)
    | '\x7b' :: rest => do
      let (pattern, rest) ← count pattern rest
      repeated fuel pattern (afterRepetition rest)
    | rest => some (pattern, rest)

end

end PatternReader

/-- The pattern that a text writes. Every step of the reader takes a character or closes a level that
a character opened, so three steps per character suffice. -/
def Pattern.ofText? (text : String) : Option Pattern :=
  match PatternReader.alternatives (3 * text.length + 4) text.toList with
  | some (pattern, []) => some pattern
  | _ => none

end Assay
