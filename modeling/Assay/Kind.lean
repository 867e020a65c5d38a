import Assay.Instant.Timestamp
import Assay.Text.Blank
import Assay.Value.Text

/-!
# Kinds

The kind of a schema decides which values pass its type check, which values a union offers it, and how
a value is coerced at the end. A date may be given as a date, as a timestamp or as a number of
milliseconds, so a date schema checks and coerces by the instant that a value denotes.
-/
namespace Assay

/-- What a schema describes. -/
inductive Kind where
  /-- Texts. -/
  | string
  /-- Finite numbers. -/
  | number
  /-- Truth values. -/
  | boolean
  /-- Dates, timestamps and numbers of milliseconds. -/
  | date
  /-- Arrays, perhaps of one element schema. -/
  | array
  /-- Plain objects, perhaps of one value schema. -/
  | object
  /-- Objects with declared fields. -/
  | shape
  /-- Arrays with declared positions. -/
  | tuple
  /-- One of several schemas. -/
  | union
  /-- Instances of classes. -/
  | inst
  /-- Functions. -/
  | function
  /-- Anything that a callback lets pass. -/
  | custom
deriving DecidableEq

namespace Value

/-- The number of milliseconds that a number denotes: a finite number, cut off at the point. -/
def milliseconds? (number : Float) : Option Int :=
  (Binary.ofFloat? number).map Binary.truncate

/-- The instant that a value denotes. -/
def toInstant? : Value → Option Instant
  | date instant => some instant
  | string text => Instant.ofText? text
  | number value => (milliseconds? value).bind Instant.ofMilliseconds?
  | _ => none

end Value

namespace Kind

/-- The name of a kind, which types start from. -/
def name : Kind → String
  | string => "string"
  | number => "number"
  | boolean => "boolean"
  | date => "date"
  | array => "array"
  | object => "object"
  | shape => "shape"
  | tuple => "tuple"
  | union => "union"
  | inst => "instance"
  | function => "function"
  | custom => "custom"

/-- Every kind, scalars first. -/
def all : List Kind :=
  [string, number, boolean, date, array, object, shape, tuple, union, inst, function, custom]

/-- The kind of a name. -/
def ofName? (name : String) : Option Kind := all.find? fun kind => kind.name == name

/-- Whether a value that is not null passes the type check. -/
def check (kind : Kind) (value : Value) : Bool :=
  match kind with
  | string => value.string?.isSome
  | number => (value.number?.map isFiniteNumber).getD false
  | boolean => value.bool?.isSome
  | date => value.toInstant?.isSome
  | array | tuple => value.array?.isSome
  | object => value.object?.isSome
  | shape => value.fields?.isSome
  | inst => value.class?.isSome
  | function => value.function?.isSome
  | union | custom => true

/-- What to report of a value that fails the type check. -/
def typeError : Kind → String
  | string => "Must be a string."
  | number => "Must be a number."
  | boolean => "Must be a boolean."
  | date => "Must be a string, number, or date."
  | array => "Must be an array."
  | object => "Must be a plain object."
  | shape => "Must be a shaped object."
  | tuple => "Must be a tuple."
  | inst => "Must be a class instance."
  | function => "Must be a function."
  | union | custom => "Invalid value."

/-- Coerce a value to a kind; a value that cannot be coerced stays as it is. -/
def cast (kind : Kind) (value : Value) : Value :=
  match kind, value with
  | string, .number real => .string (numberText real)
  | string, .bool truth => .string (if truth then "true" else "false")
  | number, .string text => ((Numeral.read? (trimmed text)).map Value.number).getD value
  | number, .bool truth => .number (if truth then 1 else 0)
  | boolean, .string text =>
    if text = "true" then .bool true else if text = "false" then .bool false else value
  | boolean, .number real => .bool (real != 0)
  | date, value => (value.toInstant?.map Value.date).getD value
  | _, value => value

/-- Whether the kind has null among its values from the start: references do. -/
def isNullable : Kind → Bool
  | inst | function => true
  | _ => false

/-- Whether a union offers a member of a kind the values of a category. -/
def accepts (kind : Kind) (category : Category) : Bool :=
  match kind with
  | custom => true
  | array | tuple => category == .array
  | object => category == .object
  | shape => category == .object || category == .inst
  | string => category == .string
  | number => category == .number
  | boolean => category == .boolean
  | date => category == .date
  | inst => category == .inst
  | function => category == .function
  | union => false

end Kind

end Assay
