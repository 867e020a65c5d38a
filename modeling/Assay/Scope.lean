import Assay.Mode
import Assay.Value.Basic

/-!
# Scopes

A scope is what a validation sees besides the value itself: the object whose field is looked at, the
outermost value, and the mode.
-/
namespace Assay

/-- The surroundings of a value. -/
structure Scope where
  /-- The object that the value is a field of. -/
  current : Option Value
  /-- The outermost value. -/
  root : Option Value
  /-- How much is checked. -/
  mode : Mode

namespace Scope

/-- No surroundings. -/
def new (mode : Mode) : Scope := ⟨none, none, mode⟩

/-- The surroundings that an outermost value makes for itself. -/
def ofRoot (value : Value) (mode : Mode) : Scope := ⟨some value, some value, mode⟩

/-- The same surroundings inside another object. -/
def withCurrent (scope : Scope) (object : Value) : Scope := { scope with current := some object }

/-- Whether everything is checked. -/
def isStrict (scope : Scope) : Bool := scope.mode.isStrict

end Scope

end Assay
