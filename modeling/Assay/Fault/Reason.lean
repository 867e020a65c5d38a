import Assay.Kind
import Assay.Rule.Date
import Assay.Rule.Number
import Assay.Rule.Presence
import Assay.Rule.Size
import Assay.Rule.Text

/-!
# Reasons

A reason says what is wrong with a value, without saying where. Each way for a validation to fail has
a reason of its own, which carries what its text needs; `Reason.message` is the only place where a reason
is put into words.
-/
namespace Assay

/-- What is wrong with a value. -/
inductive Reason where
  /-- A required field was left out. -/
  | missing
  /-- A field that must not be used was given. -/
  | neverUsed
  /-- Null was given where it is not allowed. -/
  | nullValue
  /-- The value fails the type check of a kind. -/
  | wrongKind (kind : Kind)
  /-- The text breaks a rule. -/
  | text (rule : TextRule)
  /-- The number breaks a rule. -/
  | number (rule : NumberRule)
  /-- The truth value is not the expected one. -/
  | boolean (expected : Bool)
  /-- The date breaks a rule. -/
  | date (rule : DateRule)
  /-- The size of the container breaks a rule. -/
  | size (container : Container) (rule : SizeRule)
  /-- The value is no instance of a class. -/
  | notInstance (className : String)
  /-- The value is not the only one allowed. -/
  | notDefault (allowed : Value)
  /-- The fields present in a group break a rule. -/
  | presence (rule : PresenceRule) (group : List String)
  /-- An exact shape was given fields that it does not declare. -/
  | unknownFields (names : List String)
  /-- A tuple was given more items than it has positions. -/
  | tooManyItems (most : Nat)
  /-- A member of a union is itself a union. -/
  | nestedUnion
  /-- No member of a union accepts the value; `invalidations` are the messages of those tried. -/
  | noMember (members : List String) (received : String) (invalidations : List String)
  /-- A reason in the words of the host. -/
  | stated (words : String)

namespace Reason

/-- What a refused truth value is told. -/
def booleanText (expected : Bool) : String :=
  if expected then "May only be true." else "May only be false."

/-- The messages of the candidates of a union, one to a line; none if no candidate was tried. -/
def invalidationsText (invalidations : List String) : String :=
  if invalidations.isEmpty then "."
  else " with the following invalidations:" ++
    String.join (invalidations.map fun message => "\n - " ++ message)

/-- A reason in words. -/
def message : Reason → String
  | missing => "Field is required and must be defined."
  | neverUsed => "Field should never be used."
  | nullValue => "Null is not allowed."
  | wrongKind kind => kind.typeError
  | text rule => rule.message
  | number rule => rule.message
  | boolean expected => booleanText expected
  | date rule => rule.message
  | size container rule => rule.message container
  | notInstance className => s!"Must be an instance of \"{className}\"."
  | notDefault allowed => "Value may only be \"" ++ allowed.toText ++ "\"."
  | presence rule group => rule.message group
  | unknownFields names => "Unknown fields: " ++ ", ".intercalate names ++ "."
  | tooManyItems most => s!"Value must be a tuple with at most {most} items."
  | nestedUnion => "Nested unions are not supported."
  | noMember members received invalidations =>
    "Value must be one of: " ++ ", ".intercalate members ++ ". Received " ++ received ++
      invalidationsText invalidations
  | stated words => words

end Reason

end Assay
