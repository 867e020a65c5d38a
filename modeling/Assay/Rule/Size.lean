import Assay.Value.Basic

/-!
# Rules on sizes

A size rule counts the items of an array or the properties of a plain object.
-/
namespace Assay

/-- The containers that have a size. -/
inductive Container where
  /-- Arrays. -/
  | array
  /-- Plain objects. -/
  | object
deriving DecidableEq

namespace Container

/-- The size of a value that is such a container. -/
def size? (container : Container) (value : Value) : Option Nat :=
  match container with
  | array => value.array?.map List.length
  | object => value.object?.map List.length

end Container

/-- Which sizes are allowed. -/
inductive SizeRule where
  /-- Any size but zero. -/
  | notEmpty
  /-- One size. -/
  | exactly (count : Nat)
deriving DecidableEq

namespace SizeRule

/-- Whether a size is allowed. -/
def holds (rule : SizeRule) (size : Nat) : Bool :=
  match rule with
  | notEmpty => size != 0
  | exactly count => size == count

/-- What to report of a container whose size is not allowed. -/
def message (rule : SizeRule) (container : Container) : String :=
  match rule, container with
  | notEmpty, .array => "Array cannot be empty."
  | notEmpty, .object => "Object cannot be empty."
  | exactly count, .array => s!"Array length must be {count}."
  | exactly count, .object => s!"Object must have {count} properties."

end SizeRule

end Assay
