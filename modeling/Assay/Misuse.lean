import Assay.Kind
import Assay.Rule.Presence

/-!
# Misuse

A criterion that cannot mean anything is a mistake in the schema, not in a value. It is found when the
criterion is applied, and no schema comes of it.
-/
namespace Assay

/-- A mistake in the building of a schema. -/
inductive Misuse where
  /-- A schema is held to its default without having one of its own kind. -/
  | noDefault (kind : Kind)
  /-- A presence rule lists no fields. -/
  | noFields (rule : PresenceRule)
  /-- A choice of texts is empty. -/
  | noTexts
  /-- A choice of numbers is empty. -/
  | noNumbers
  /-- The bounds of a number are out of order. -/
  | numberBounds (least greatest : Float)
  /-- The bounds of a date are out of order. -/
  | dateBounds
  /-- A union has no members. -/
  | noMembers
  /-- A member of a union is itself a union. -/
  | nestedUnion

namespace Misuse

/-- A mistake in words. -/
def message : Misuse → String
  | noDefault kind => s!"only() requires a defined {kind.name} default value"
  | noFields rule => s!"{rule.connective}() requires a list of field names"
  | noTexts => "one_of() requires a non-empty list of strings"
  | noNumbers => "one_of() requires a non-empty list of numbers"
  | numberBounds least greatest =>
    s!"between() requires min <= max, got {numberText least} and {numberText greatest}"
  | dateBounds => "between() requires start <= end"
  | noMembers => "union() requires at least one member schema"
  | nestedUnion => "Nested unions are not supported."

end Misuse

end Assay
