/-!
# Instants

An instant is a number of seconds since the start of 1970 and a number of nanoseconds in that
second. A leap second is the last second of its minute with a full second of nanoseconds on top, so
instants are ordered by their seconds and then by their nanoseconds.
-/
namespace Assay

/-- A point in time. -/
structure Instant where
  /-- Seconds since the start of 1970, rounded down. -/
  seconds : Int
  /-- Nanoseconds in the second; a leap second has at least a billion. -/
  nanoseconds : Nat
deriving DecidableEq

namespace Instant

/-- Whether an instant comes before another one. -/
def isBefore (first second : Instant) : Bool :=
  decide (first.seconds < second.seconds) ||
    (first.seconds == second.seconds && decide (first.nanoseconds < second.nanoseconds))

/-- The first instant that a number of milliseconds can denote. -/
def leastMilliseconds : Int := -8334601228800000

/-- The last instant that a number of milliseconds can denote. -/
def greatestMilliseconds : Int := 8210266876799999

/-- The instant a number of milliseconds after the start of 1970, within the range of the calendar. -/
def ofMilliseconds? (milliseconds : Int) : Option Instant :=
  if leastMilliseconds ≤ milliseconds ∧ milliseconds ≤ greatestMilliseconds then
    some ⟨milliseconds / 1000, (milliseconds % 1000).toNat * 1000000⟩
  else none

/-- The instant without what is finer than a millisecond. -/
def toWholeMilliseconds (instant : Instant) : Instant :=
  { instant with nanoseconds := instant.nanoseconds / 1000000 * 1000000 }

end Instant

end Assay
