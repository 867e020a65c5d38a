/-!
# Patterns

A pattern is a regular expression over characters with tests for the two ends of the text. Searching
goes through the text once. It keeps marks in the pattern: a character set is marked when the last
character read belongs to it in some attempt to match, whichever position the attempt began at. One
more character moves all marks at once, so a search takes the size of the pattern for each character
of the text, however many attempts there are. A pattern is found as soon as an attempt can end.

Whether a pattern matches the empty text depends on the position by two facts, whether it is the start
of the text and whether it is the end. After one character no position is the start.
-/
namespace Assay

/-- A set of characters: the ranges, or all that is outside of them. -/
structure CharSet where
  /-- First and last character of each range. -/
  ranges : List (Char × Char)
  /-- Whether the set is what the ranges leave out. -/
  negated : Bool
deriving DecidableEq

namespace CharSet

/-- Whether a character belongs to the set. -/
def contains (set : CharSet) (char : Char) : Bool :=
  (set.ranges.any fun range => decide (range.1 ≤ char ∧ char ≤ range.2)) != set.negated

/-- The set of one character. -/
def single (char : Char) : CharSet := ⟨[(char, char)], false⟩

/-- Every character but the line break. -/
def anyInLine : CharSet := ⟨[('\n', '\n')], true⟩

end CharSet

/-- A regular expression with tests for the ends of the text and marks for a search. -/
inductive Pattern where
  /-- The empty text. -/
  | empty
  /-- The empty text at the start. -/
  | start
  /-- The empty text at the end. -/
  | finish
  /-- One character of a set; `marked` if an attempt has just read it. -/
  | one (set : CharSet) (marked : Bool)
  /-- One pattern and then another. -/
  | seq (first second : Pattern)
  /-- One of two patterns. -/
  | alt (first second : Pattern)
  /-- A pattern any number of times. -/
  | star (pattern : Pattern)
deriving DecidableEq

namespace Pattern

/-- One character of a set, without a mark. -/
def ofSet (set : CharSet) : Pattern := one set false

/-- Whether a pattern matches the empty text at a position. -/
def accepts (atStart atEnd : Bool) : Pattern → Bool
  | empty => true
  | start => atStart
  | finish => atEnd
  | one .. => false
  | seq first second => first.accepts atStart atEnd && second.accepts atStart atEnd
  | alt first second => first.accepts atStart atEnd || second.accepts atStart atEnd
  | star _ => true

/-- Whether an attempt that has read a character can end at the position after it: nothing but the
empty text is left to match behind some mark. -/
def isReached (atEnd : Bool) : Pattern → Bool
  | empty | start | finish => false
  | one _ marked => marked
  | seq first second =>
    (first.isReached atEnd && second.accepts false atEnd) || second.isReached atEnd
  | alt first second => first.isReached atEnd || second.isReached atEnd
  | star pattern => pattern.isReached atEnd

/-- Move the marks over a character. Attempts go on from the marks, and from the front of the pattern
if it is entered at the position before the character. -/
def advance (char : Char) (atStart : Bool) : Bool → Pattern → Pattern
  | _, empty => empty
  | _, start => start
  | _, finish => finish
  | entered, one set _ => one set (entered && set.contains char)
  | entered, seq first second =>
    seq (first.advance char atStart entered)
      (second.advance char atStart
        ((entered && first.accepts atStart false) || first.isReached false))
  | entered, alt first second =>
    alt (first.advance char atStart entered) (second.advance char atStart entered)
  | entered, star pattern =>
    star (pattern.advance char atStart (entered || pattern.isReached false))

/-- Search on from a position with the marks of the attempts so far; a new attempt begins at every
position. -/
def searchFrom (pattern : Pattern) (atStart : Bool) : List Char → Bool
  | [] => pattern.accepts atStart true || pattern.isReached true
  | char :: rest =>
    pattern.accepts atStart false || pattern.isReached false ||
      searchFrom (pattern.advance char atStart true) false rest

/-- Whether a pattern without marks matches some part of a text. -/
def occursIn (pattern : Pattern) (text : String) : Bool := pattern.searchFrom true text.toList

/-- A pattern once or more. -/
def plus (pattern : Pattern) : Pattern := seq pattern (star pattern)

/-- A pattern once or not at all. -/
def optional (pattern : Pattern) : Pattern := alt pattern empty

/-- A pattern a given number of times and then perhaps a few times more. -/
def times (pattern : Pattern) : Nat → Nat → Pattern
  | 0, 0 => empty
  | 0, more + 1 => optional (seq pattern (times pattern 0 more))
  | count + 1, more => seq pattern (times pattern count more)

/-- Patterns one after the other. -/
def sequence (patterns : List Pattern) : Pattern := patterns.foldr seq empty

end Pattern

end Assay
