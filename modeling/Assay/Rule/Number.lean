import Assay.Number.Decimal

/-!
# Rules on numbers

A number rule says which numbers are allowed and what to report of the others. Comparisons are those
of doubles, so a number that is none satisfies no bound. All number rules are about content.
-/
namespace Assay

/-- Which numbers are allowed. -/
inductive NumberRule where
  /-- Numbers between two bounds, both excluded. -/
  | between (least greatest : Float)
  /-- Numbers between two bounds, both included. -/
  | betweenInclusive (least greatest : Float)
  /-- Numbers above a bound. -/
  | above (bound : Float)
  /-- Numbers not below a bound. -/
  | atLeast (bound : Float)
  /-- Numbers below a bound. -/
  | below (bound : Float)
  /-- Numbers not above a bound. -/
  | atMost (bound : Float)
  /-- Finite whole numbers. -/
  | whole
  /-- Numbers that are no finite whole numbers. -/
  | fractional
  /-- Numbers above zero. -/
  | positive
  /-- Numbers below zero. -/
  | negative
  /-- The numbers of a list. -/
  | oneOf (choices : List Float)

namespace NumberRule

/-- Whether a number is allowed. -/
def holds (rule : NumberRule) (number : Float) : Bool :=
  match rule with
  | between least greatest => decide (least < number) && decide (number < greatest)
  | betweenInclusive least greatest => decide (least ≤ number) && decide (number ≤ greatest)
  | above bound => decide (bound < number)
  | atLeast bound => decide (bound ≤ number)
  | below bound => decide (number < bound)
  | atMost bound => decide (number ≤ bound)
  | whole => (wholeNumber? number).isSome
  | fractional => (wholeNumber? number).isNone
  | positive => decide (0 < number)
  | negative => decide (number < 0)
  | oneOf choices => choices.any (· == number)

/-- What to report of a number that is not allowed. -/
def message : NumberRule → String
  | between least greatest =>
    s!"Number must be between {numberText least} and {numberText greatest}."
  | betweenInclusive least greatest =>
    s!"Number must be between {numberText least} and {numberText greatest} inclusive."
  | above bound => s!"Number must be greater than {numberText bound}."
  | atLeast bound => s!"Number must be greater than or equal to {numberText bound}."
  | below bound => s!"Number must be less than {numberText bound}."
  | atMost bound => s!"Number must be less than or equal to {numberText bound}."
  | whole => "Number must be an integer."
  | fractional => "Number must be a float."
  | positive => "Number must be positive."
  | negative => "Number must be negative."
  | oneOf choices => "Number must be one of: " ++ ", ".intercalate (choices.map numberText) ++ "."

end NumberRule

end Assay
