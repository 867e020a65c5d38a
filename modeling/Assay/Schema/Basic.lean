import Assay.Fault.Reason
import Assay.Misuse
import Assay.Scope

/-!
# Schemas

A schema is data: settings that decide how undefined, null and deprecated input is met, and steps that
are taken with a value in order. A step either checks the value or rebuilds it from the results of
member schemas. Callbacks and computed defaults are named by a type of the host's choice, and a
deferred schema by a text, so that schemas can refer to one another in circles; `Host` says what the
names mean.
-/
namespace Assay

/-- What takes the place of undefined input. -/
inductive Default (κ : Type) where
  /-- Nothing does. -/
  | undefined
  /-- A fixed value. -/
  | fixed (value : Value)
  /-- What the host computes. -/
  | computed (name : κ)
  /-- The current time. -/
  | now

namespace Default

variable {κ : Type}

/-- The default that a schema of a kind starts with. Unions and custom schemas are given theirs. -/
def ofKind : Kind → Default κ
  | .string => fixed (.string "")
  | .number => fixed (.number 0)
  | .boolean => fixed (.bool false)
  | .date => now
  | .array | .tuple => fixed (.array [])
  | .object | .shape => fixed (.object [])
  | .inst | .function => fixed .null
  | .union | .custom => undefined

/-- The fixed value, if the default is one. -/
def fixed? : Default κ → Option Value
  | fixed value => some value
  | _ => none

/-- Whether a value equals the fixed default. -/
def isValue (default : Default κ) (value : Value) : Bool :=
  match default with
  | fixed held => held == value
  | _ => false

end Default

/-- How a schema meets its input. -/
structure Settings (κ : Type) where
  /-- The kind of values described. -/
  kind : Kind
  /-- The type as it is shown. -/
  typeName : String
  /-- What takes the place of undefined input. -/
  default : Default κ
  /-- Whether null is accepted. -/
  nullable : Bool
  /-- Whether undefined input is refused rather than replaced. -/
  required : Bool
  /-- Whether any defined input is refused. -/
  never : Bool
  /-- The notice to give when defined input is met. -/
  deprecated : Option String
  /-- Whether a shape refuses undeclared fields. -/
  exact : Bool

/-- The settings that a schema of a kind starts with. -/
def Settings.ofKind {κ : Type} (kind : Kind) : Settings κ where
  kind := kind
  typeName := kind.name
  default := .ofKind kind
  nullable := kind.isNullable
  required := false
  never := false
  deprecated := none
  exact := false

/-- A condition on a value. -/
inductive Check (κ : Type) where
  /-- A rule on texts; other values pass. -/
  | text (rule : TextRule)
  /-- A rule on numbers; other values pass. -/
  | number (rule : NumberRule)
  /-- The truth value expected; other values pass. -/
  | boolean (expected : Bool)
  /-- A rule on the instant that the value denotes; a value that denotes none passes. -/
  | date (rule : DateRule)
  /-- A rule on the size of a container; other values pass. -/
  | size (container : Container) (rule : SizeRule)
  /-- The value must be an instance of a class. -/
  | instanceOf (cls : Class) (loose : Bool)
  /-- The value must equal a given one. -/
  | only (allowed : Value)
  /-- A rule on the fields present in the current object. -/
  | presence (rule : PresenceRule) (keys : List String)
  /-- A callback of the host. -/
  | custom (name : κ)

/-- Whether a check is about content, so that an optional field at its default escapes it. -/
def Check.isAboutContent {κ : Type} : Check κ → Bool
  | text rule => rule.isAboutContent
  | number _ => true
  | _ => false

mutual

/-- A description of values. -/
inductive Schema (κ : Type) where
  /-- Settings and steps. -/
  | built (body : Body κ)
  /-- The schema that a name stands for when it is needed. -/
  | deferred (name : String)

/-- The settings of a schema and its steps in order. -/
structure Body (κ : Type) where
  /-- How input is met. -/
  settings : Settings κ
  /-- What is done with a value, in order. -/
  steps : List (Step κ)

/-- Something to do with a value. -/
inductive Step (κ : Type) where
  /-- Check a condition. -/
  | check (check : Check κ)
  /-- Validate every key of a plain object. -/
  | keys (schema : Schema κ)
  /-- Rebuild an array from its validated items. -/
  | elements (schema : Schema κ)
  /-- Rebuild a plain object from its validated values. -/
  | values (schema : Schema κ)
  /-- Rebuild an object from its declared fields; the fields of an instance are only validated. -/
  | fields (declared : List (String × Schema κ))
  /-- Rebuild an array position by position. -/
  | positions (schemas : List (Schema κ))
  /-- Take the result of the first member that accepts the value. -/
  | members (schemas : List (Schema κ))

end

/-- Whether a step can only refuse a value or can also rebuild it. -/
inductive Role where
  /-- It can only refuse. -/
  | check
  /-- It can rebuild. -/
  | rebuild
deriving DecidableEq

namespace Step

variable {κ : Type}

/-- The role of a step. -/
def role : Step κ → Role
  | check _ | keys _ => .check
  | _ => .rebuild

/-- Whether a step is about content, so that an optional field at its default escapes it. -/
def isAboutContent : Step κ → Bool
  | check condition => condition.isAboutContent
  | _ => false

/-- Whether a step is left out for a value: it is about content, the field is not required, and the
value equals the fixed default. -/
def isSkipped (step : Step κ) (settings : Settings κ) (value : Value) : Bool :=
  step.isAboutContent && !settings.required && settings.default.isValue value

/-- The schemas that a step hands values on to. -/
def schemas : Step κ → List (Schema κ)
  | check _ => []
  | keys schema => [schema]
  | elements schema => [schema]
  | values schema => [schema]
  | fields declared => declared.map Prod.snd
  | positions schemas => schemas
  | members schemas => schemas

end Step

namespace Schema

variable {κ : Type}

/-- The kind of a schema; a deferred schema has the kind of those that accept anything. -/
def kind : Schema κ → Kind
  | built body => body.settings.kind
  | deferred _ => .custom

/-- The type of a schema as it is shown. -/
def typeName : Schema κ → String
  | built body => body.settings.typeName
  | deferred _ => "lazy"

end Schema

/-- What the host supplies: the meaning of the names in a schema, and the time. -/
structure Host (κ : Type) where
  /-- The objection of a callback to a value, if it has one. -/
  callback : κ → Value → Scope → Option String
  /-- A computed default. -/
  compute : κ → Path → Scope → Value
  /-- The current time. -/
  now : Instant
  /-- The schema that a name stands for, which is built when it is needed. -/
  definitions : String → Except Misuse (Schema κ)

end Assay
