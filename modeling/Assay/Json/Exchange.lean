import Assay.Instant.Timestamp
import Assay.Json.Basic
import Assay.Number.Decimal
import Assay.Value.Basic

/-!
# Values and JSON

Every document is a value. A value is a document unless it holds an instance, a function or a number
that is not finite, in which case the first such part, in order of items and of keys, is reported. A
whole number below two to the sixty-third in size is exported as an integer, a date as a timestamp.
-/
namespace Assay

/-- Why a value is no JSON document. -/
inductive ExportError where
  /-- A part belongs to a category that JSON lacks. -/
  | unrepresentable (category : Category)
  /-- A number is infinite or none at all. -/
  | notFinite (number : Float)

namespace ExportError

/-- The reason in words. -/
def message : ExportError → String
  | unrepresentable category => s!"{category.name} values have no JSON representation"
  | notFinite number => s!"non-finite number {numberText number} has no JSON representation"

end ExportError

namespace Json

/-- A number as a document. -/
def ofNumber (number : Float) : Except ExportError Json :=
  match Binary.ofFloat? number with
  | none => .error (.notFinite number)
  | some binary =>
    match binary.toInt? with
    | some whole => .ok (if whole.natAbs < Nat.pow 2 63 then integer whole else decimal number)
    | none => .ok (decimal number)

mutual

/-- A value as a document. -/
def ofValue : Value → Except ExportError Json
  | .null => .ok null
  | .bool value => .ok (bool value)
  | .number value => ofNumber value
  | .string value => .ok (string value)
  | .date value => .ok (string value.toText)
  | .array items => (ofItems items).map array
  | .object fields => (ofFields fields).map object
  | .inst .. => .error (.unrepresentable .inst)
  | .function _ => .error (.unrepresentable .function)

/-- The items of an array as documents. -/
def ofItems : List Value → Except ExportError (List Json)
  | [] => .ok []
  | item :: rest => do
    let first ← ofValue item
    let others ← ofItems rest
    .ok (first :: others)

/-- The fields of an object as documents. -/
def ofFields : List (String × Value) → Except ExportError (List (String × Json))
  | [] => .ok []
  | (key, value) :: rest => do
    let first ← ofValue value
    let others ← ofFields rest
    .ok ((key, first) :: others)

end

mutual

/-- A document as a value. -/
def toValue : Json → Value
  | null => .null
  | bool value => .bool value
  | integer value => .ofInt value
  | decimal value => .number value
  | string value => .string value
  | array items => .array (toItems items)
  | object fields => .ofFields (toFields fields)

/-- The items of a list as values. -/
def toItems : List Json → List Value
  | [] => []
  | item :: rest => toValue item :: toItems rest

/-- Documents under keys as values under keys. -/
def toFields : List (String × Json) → List (String × Value)
  | [] => []
  | (key, document) :: rest => (key, toValue document) :: toFields rest

end

end Json

end Assay
