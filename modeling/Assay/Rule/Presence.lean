import Assay.Path
import Assay.Value.Basic

/-!
# Rules across fields

A presence rule is about a group of fields of one object: all of them or none, at least one, or
exactly one of them must be present. The field that carries the rule belongs to the group, and a field
is present when the object has it with a value that is not null.
-/
namespace Assay

/-- How many fields of a group must be present. -/
inductive PresenceRule where
  /-- All of them or none. -/
  | all
  /-- At least one. -/
  | any
  /-- Exactly one. -/
  | one
deriving DecidableEq

namespace PresenceRule

/-- The connective that a rule is named after. -/
def connective : PresenceRule → String
  | all => "and"
  | any => "or"
  | one => "xor"

/-- The group in order of keys: the listed keys and the key of the field that carries the rule. -/
def group (keys : List String) (path : Path) : List String :=
  Entries.keys (Entries.ofList ((keys ++ path.lastKey?.toList).map fun key => (key, ())))

/-- How many fields of a group an object has. -/
def presentCount (group : List String) (object : Option Value) : Nat :=
  (group.filter fun key => Value.isPresent (object.bind (·.field? key))).length

/-- Whether a count of present fields is allowed in a group of a size. -/
def holds (rule : PresenceRule) (present size : Nat) : Bool :=
  match rule with
  | all => present == 0 || present == size
  | any => present != 0
  | one => present == 1

/-- What to report of an object in which the count is not allowed. -/
def message (rule : PresenceRule) (group : List String) : String :=
  let listed := ", ".intercalate group
  match rule with
  | all => s!"All of these fields must be defined: {listed}."
  | any => s!"At least one of these fields must be defined: {listed}."
  | one => s!"Only one of these fields may be defined: {listed}."

end PresenceRule

end Assay
