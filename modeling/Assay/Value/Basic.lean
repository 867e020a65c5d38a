import Assay.Class
import Assay.Entries
import Assay.Instant.Basic
import Assay.Number.Binary

/-!
# Values

A value is what a schema looks at: null, a scalar, a date, an array, a plain object, an instance of a
class, or a function. Objects and instances hold their fields as entries sorted by key. A function is
known by a number alone; what it does belongs to the host.

Equality compares numbers as numbers do, so a number that is none differs from itself and the two
zeros agree; instances compare by class and fields, functions by their numbers.
-/
namespace Assay

/-- A function of the host. -/
structure Function where
  /-- The number that identifies the function. -/
  id : Nat
  /-- The name, unless it is anonymous. -/
  name : Option String

namespace Function

/-- Whether two references are to one function. -/
def same (first second : Function) : Bool := first.id == second.id

/-- The function as diagnostics show it. -/
def describe (function : Function) : String :=
  match function.name with
  | some name => s!"Function({name})"
  | none => "Function(<anonymous>)"

end Function

/-- A value. -/
inductive Value where
  /-- The absence of content. -/
  | null
  /-- A truth value. -/
  | bool (value : Bool)
  /-- A double. -/
  | number (value : Float)
  /-- A text. -/
  | string (value : String)
  /-- A point in time. -/
  | date (value : Instant)
  /-- A list of values. -/
  | array (items : List Value)
  /-- A plain object, its fields sorted by key. -/
  | object (fields : List (String × Value))
  /-- An instance of a class, its fields sorted by key. -/
  | inst (cls : Class) (fields : List (String × Value))
  /-- A function. -/
  | function (value : Function)

/-- The kinds of content that values have. -/
inductive Category where
  /-- The absence of content. -/
  | null
  /-- Truth values. -/
  | boolean
  /-- Numbers. -/
  | number
  /-- Texts. -/
  | string
  /-- Points in time. -/
  | date
  /-- Lists. -/
  | array
  /-- Plain objects. -/
  | object
  /-- Instances of classes. -/
  | inst
  /-- Functions. -/
  | function
deriving DecidableEq

namespace Category

/-- The name of a category. -/
def name : Category → String
  | null => "null"
  | boolean => "boolean"
  | number => "number"
  | string => "string"
  | date => "date"
  | array => "array"
  | object => "object"
  | inst => "instance"
  | function => "function"

/-- Every category, scalars first. -/
def all : List Category := [null, boolean, number, string, date, array, object, inst, function]

end Category

namespace Value

/-- The category of a value. -/
def category : Value → Category
  | null => .null
  | bool _ => .boolean
  | number _ => .number
  | string _ => .string
  | date _ => .date
  | array _ => .array
  | object _ => .object
  | inst .. => .inst
  | function _ => .function

/-- What a value is called in messages: its class if it is an instance, else its category. -/
def typeName : Value → String
  | inst cls _ => cls.name
  | value => value.category.name

/-- Whether the value is null. -/
def isNull : Value → Bool
  | null => true
  | _ => false

/-- Whether there is a value and it is not null. -/
def isPresent : Option Value → Bool
  | some value => !value.isNull
  | none => false

/-- The truth value, if it is one. -/
def bool? : Value → Option Bool
  | bool value => some value
  | _ => none

/-- The number, if it is one. -/
def number? : Value → Option Float
  | number value => some value
  | _ => none

/-- The text, if it is one. -/
def string? : Value → Option String
  | string value => some value
  | _ => none

/-- The point in time, if it is one. -/
def date? : Value → Option Instant
  | date value => some value
  | _ => none

/-- The items, if it is an array. -/
def array? : Value → Option (List Value)
  | array items => some items
  | _ => none

/-- The fields, if it is a plain object. -/
def object? : Value → Option (List (String × Value))
  | object fields => some fields
  | _ => none

/-- The class, if it is an instance. -/
def class? : Value → Option Class
  | inst cls _ => some cls
  | _ => none

/-- The function, if it is one. -/
def function? : Value → Option Function
  | function value => some value
  | _ => none

/-- The fields, if it is a plain object or an instance. -/
def fields? : Value → Option (List (String × Value))
  | object fields => some fields
  | inst _ fields => some fields
  | _ => none

/-- The value of a field of a plain object or an instance. -/
def field? (value : Value) (key : String) : Option Value :=
  value.fields?.bind (List.lookup key)

mutual

/-- Whether two values are equal. -/
def same : Value → Value → Bool
  | null, null => true
  | bool first, bool second => first == second
  | number first, number second => first == second
  | string first, string second => first == second
  | date first, date second => first == second
  | array first, array second => sameItems first second
  | object first, object second => sameFields first second
  | inst cls first, inst other second => cls == other && sameFields first second
  | function first, function second => first.same second
  | _, _ => false

/-- Whether two lists are equal item by item. -/
def sameItems : List Value → List Value → Bool
  | [], [] => true
  | first :: firsts, second :: seconds => same first second && sameItems firsts seconds
  | _, _ => false

/-- Whether two lists of fields are equal key by key and value by value. -/
def sameFields : List (String × Value) → List (String × Value) → Bool
  | [], [] => true
  | (key, first) :: firsts, (other, second) :: seconds =>
    key == other && same first second && sameFields firsts seconds
  | _, _ => false

end

instance : BEq Value := ⟨same⟩

/-- The object of a list of fields; of equal keys the last one counts. -/
def ofFields (fields : List (String × Value)) : Value := object (Entries.ofList fields)

/-- The number nearest to an integer. -/
def ofInt (integer : Int) : Value := number (Binary.nearestInt integer)

end Value

end Assay
