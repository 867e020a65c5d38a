/-!
# Sets of characters as code point ranges

A property of characters is a list of ranges of code points. A range with stride two holds every
other code point, which is how scripts lay out the pairs of capital and small letters.
-/
namespace Assay

/-- The code points `first`, `first + stride` and so on up to `last`. -/
structure CodeRange where
  /-- The first code point. -/
  first : Nat
  /-- The last code point. -/
  last : Nat
  /-- The distance between neighbours. -/
  stride : Nat

namespace CodeRange

/-- Whether a code point belongs to a range. -/
def contains (range : CodeRange) (code : Nat) : Bool :=
  decide (range.first ≤ code ∧ code ≤ range.last) && (code - range.first) % range.stride == 0

/-- Whether a character belongs to one of the ranges. -/
def anyContains (ranges : List CodeRange) (char : Char) : Bool :=
  ranges.any fun range => range.contains char.toNat

end CodeRange

end Assay
