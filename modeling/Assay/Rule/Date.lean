import Assay.Instant.Timestamp

/-!
# Rules on dates

A date rule bounds an instant; the bounds themselves are excluded.
-/
namespace Assay

/-- Which dates are allowed. -/
inductive DateRule where
  /-- Dates before a bound. -/
  | before (bound : Instant)
  /-- Dates after a bound. -/
  | after (bound : Instant)
  /-- Dates between two bounds. -/
  | between (start finish : Instant)

namespace DateRule

/-- Whether a date is allowed. -/
def holds (rule : DateRule) (date : Instant) : Bool :=
  match rule with
  | before bound => date.isBefore bound
  | after bound => bound.isBefore date
  | between start finish => start.isBefore date && date.isBefore finish

/-- What to report of a date that is not allowed. -/
def message : DateRule → String
  | before bound => s!"Date must come before {bound.toText}."
  | after bound => s!"Date must come after {bound.toText}."
  | between start finish => s!"Date must be between {start.toText} and {finish.toText}."

end DateRule

end Assay
