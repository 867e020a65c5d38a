import Assay.Text.Blank

/-!
# Modes

Strict validation reports every fault. Lenient validation trusts its input: it applies defaults,
rebuilds containers and coerces scalars, and runs no checks. Each mode also goes by the name of the
environment it is meant for.
-/
namespace Assay

/-- How much a validation checks. -/
inductive Mode where
  /-- Check everything. -/
  | strict
  /-- Check nothing, coerce what can be coerced. -/
  | lenient
deriving DecidableEq

namespace Mode

/-- Whether the mode is the strict one. -/
def isStrict : Mode → Bool
  | strict => true
  | lenient => false

/-- The name of the mode. -/
def name : Mode → String
  | strict => "strict"
  | lenient => "lenient"

/-- The mode of a name, exactly as written. -/
def ofName? (name : String) : Option Mode :=
  if name = "strict" ∨ name = "development" then some strict
  else if name = "lenient" ∨ name = "production" then some lenient
  else none

/-- The mode that a text names, blanks around it and ASCII letter case aside. -/
def ofText? (text : String) : Option Mode :=
  ofName? (String.ofList ((trimBlanks text.toList).map Char.toLower))

/-- The message for a text that names no mode. -/
def unknownText (text : String) : String :=
  s!"unknown validation mode \"{text}\" (expected strict, lenient, development or production)"

end Mode

end Assay
