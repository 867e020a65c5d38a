import Assay.Instant.Timestamp
import Assay.Number.Decimal
import Assay.Text.Quoted
import Assay.Value.Basic

/-!
# Values in text

A value is shown on one line. A text stands bare on its own and quoted inside a container; keys are
never quoted, and the fields of an instance follow the name of its class.
-/
namespace Assay

namespace Value

mutual

/-- A value as it is shown inside a container. -/
def nestedText : Value → String
  | null => "null"
  | bool value => if value then "true" else "false"
  | number value => numberText value
  | string value => quoted value
  | date value => value.toText
  | array items => "[" ++ ", ".intercalate (itemTexts items) ++ "]"
  | object fields => "\x7b" ++ ", ".intercalate (fieldTexts fields) ++ "\x7d"
  | inst cls fields => cls.name ++ " \x7b" ++ ", ".intercalate (fieldTexts fields) ++ "\x7d"
  | function value =>
    match value.name with
    | some name => "[function " ++ name ++ "]"
    | none => "[function]"

/-- The items of an array as they are shown. -/
def itemTexts : List Value → List String
  | [] => []
  | item :: rest => nestedText item :: itemTexts rest

/-- Fields as they are shown, each after its key. -/
def fieldTexts : List (String × Value) → List String
  | [] => []
  | (key, value) :: rest => (key ++ ": " ++ nestedText value) :: fieldTexts rest

end

/-- A value on its own in text. -/
def toText : Value → String
  | string value => value
  | value => value.nestedText

end Value

end Assay
