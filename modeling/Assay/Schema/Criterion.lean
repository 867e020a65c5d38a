import Assay.Schema.Basic

/-!
# Criteria

A schema is built from a kind by criteria, one after the other. A criterion changes the settings, or
registers a step, or both; applied in a way that cannot mean anything it is a misuse. Structural
criteria also extend the type that is shown.
-/
namespace Assay

/-- A way to refine a schema. -/
inductive Criterion (κ : Type) where
  /-- Accept or refuse null. -/
  | nullable (allowed : Bool)
  /-- Refuse or replace undefined input. -/
  | required (needed : Bool)
  /-- Refuse any defined input, and give undefined input no default. -/
  | never
  /-- Give a notice when defined input is met. -/
  | deprecate (message : String)
  /-- Replace the default by a fixed value. -/
  | default (value : Value)
  /-- Replace the default by one that the host computes. -/
  | computedDefault (name : κ)
  /-- Ask a callback of the host. -/
  | custom (name : κ)
  /-- Allow no value but the default. -/
  | only
  /-- Require fields of a group to be present together. -/
  | presence (rule : PresenceRule) (keys : List String)
  /-- Hold texts to a rule. -/
  | text (rule : TextRule)
  /-- Hold numbers to a rule. -/
  | number (rule : NumberRule)
  /-- Allow one truth value. -/
  | boolean (expected : Bool)
  /-- Hold dates to a rule. -/
  | date (rule : DateRule)
  /-- Hold the size of a container to a rule. -/
  | size (container : Container) (rule : SizeRule)
  /-- Require instances of a class. -/
  | instanceOf (cls : Class) (loose : Bool)
  /-- Hold the keys of a plain object to a schema. -/
  | keys (schema : Schema κ)
  /-- Hold the items of an array to a schema. -/
  | elements (schema : Schema κ)
  /-- Hold the values of a plain object to a schema. -/
  | values (schema : Schema κ)
  /-- Declare the fields of an object. -/
  | fields (declared : List (String × Schema κ))
  /-- Refuse or keep the fields that are not declared. -/
  | exact (refused : Bool)
  /-- Declare the positions of an array. -/
  | positions (schemas : List (Schema κ))
  /-- Accept what one of several schemas accepts. -/
  | members (schemas : List (Schema κ))

namespace TextRule

/-- Why a rule on texts cannot mean anything. -/
def misuse? : TextRule → Option Misuse
  | oneOf [] => some .noTexts
  | _ => none

end TextRule

namespace NumberRule

/-- Why a rule on numbers cannot mean anything. -/
def misuse? : NumberRule → Option Misuse
  | between least greatest | betweenInclusive least greatest =>
    if least ≤ greatest then none else some (.numberBounds least greatest)
  | oneOf [] => some .noNumbers
  | _ => none

end NumberRule

namespace DateRule

/-- Why a rule on dates cannot mean anything. -/
def misuse? : DateRule → Option Misuse
  | between start finish => if finish.isBefore start then some .dateBounds else none
  | _ => none

end DateRule

namespace Settings

variable {κ : Type}

/-- The default that a schema can be held to: fixed, not null, and of the kind of the schema. -/
def ownDefault? (settings : Settings κ) : Option Value :=
  settings.default.fixed?.filter fun value => !value.isNull && settings.kind.check value

end Settings

namespace Criterion

variable {κ : Type}

/-- The type of a shape as it is shown. -/
def shapeType (declared : List (String × Schema κ)) : String :=
  let listed := declared.map fun (name, schema) => name ++ ": " ++ schema.typeName
  "shape<\x7b" ++ ", ".intercalate listed ++ "\x7d>"

/-- What a criterion makes of the settings. -/
def settings (settings : Settings κ) : Criterion κ → Settings κ
  | nullable allowed => { settings with nullable := allowed }
  | required needed => { settings with required := needed }
  | never => { settings with default := .undefined, never := true }
  | .deprecate message => { settings with deprecated := some message }
  | default value => { settings with default := .fixed value }
  | computedDefault name => { settings with default := .computed name }
  | instanceOf cls _ => { settings with typeName := cls.name }
  | elements schema => { settings with typeName := s!"array<{schema.typeName}>" }
  | values schema => { settings with typeName := s!"object<{schema.typeName}>" }
  | fields declared => { settings with typeName := shapeType declared }
  | exact refused => { settings with exact := refused }
  | positions schemas =>
    { settings with typeName := "tuple<" ++ ", ".intercalate (schemas.map Schema.typeName) ++ ">" }
  | members schemas => { settings with typeName := " | ".intercalate (schemas.map Schema.typeName) }
  | _ => settings

/-- The step that a criterion registers, which may depend on the settings before it. -/
def step? (settings : Settings κ) : Criterion κ → Option (Step κ)
  | custom name => some (.check (.custom name))
  | only => settings.ownDefault?.map fun value => .check (.only value)
  | presence rule listed => some (.check (.presence rule listed))
  | text rule => some (.check (.text rule))
  | number rule => some (.check (.number rule))
  | boolean expected => some (.check (.boolean expected))
  | date rule => some (.check (.date rule))
  | size container rule => some (.check (.size container rule))
  | instanceOf cls loose => some (.check (.instanceOf cls loose))
  | keys schema => some (.keys schema)
  | elements schema => some (.elements schema)
  | values schema => some (.values schema)
  | fields declared => some (.fields declared)
  | positions schemas => some (.positions schemas)
  | members schemas => some (.members schemas)
  | _ => none

/-- Why a criterion cannot mean anything for a schema with the given settings. -/
def misuse? (settings : Settings κ) : Criterion κ → Option Misuse
  | only => if settings.ownDefault?.isSome then none else some (.noDefault settings.kind)
  | presence rule listed => if listed.isEmpty then some (.noFields rule) else none
  | text rule => rule.misuse?
  | number rule => rule.misuse?
  | date rule => rule.misuse?
  | members schemas =>
    if schemas.isEmpty then some .noMembers
    else if schemas.any fun schema => schema.kind == .union then some .nestedUnion
    else none
  | _ => none

end Criterion

namespace Body

variable {κ : Type}

/-- The body that a schema of a kind starts with. -/
def ofKind (kind : Kind) : Body κ := ⟨.ofKind kind, []⟩

/-- Refine a body by a criterion that is known to mean something. -/
def refine (body : Body κ) (criterion : Criterion κ) : Body κ :=
  ⟨criterion.settings body.settings, body.steps ++ (criterion.step? body.settings).toList⟩

/-- Refine a body by a criterion. -/
def apply (body : Body κ) (criterion : Criterion κ) : Except Misuse (Body κ) :=
  match criterion.misuse? body.settings with
  | some misuse => .error misuse
  | none => .ok (body.refine criterion)

/-- Refine a body by criteria, one after the other. -/
def applyAll (body : Body κ) (criteria : List (Criterion κ)) : Except Misuse (Body κ) :=
  criteria.foldlM apply body

/-- An object with declared fields. -/
def shape (declared : List (String × Schema κ)) : Body κ :=
  (ofKind .shape).refine (.fields declared)

/-- An array with declared positions. -/
def tuple (schemas : List (Schema κ)) : Body κ := (ofKind .tuple).refine (.positions schemas)

/-- One of several schemas, with a default. -/
def union (schemas : List (Schema κ)) (default : Value) : Except Misuse (Body κ) :=
  (ofKind .union).applyAll [.members schemas, .default default]

/-- Anything that a callback lets pass, with a default. -/
def custom (name : κ) (default : Value) : Body κ :=
  ((ofKind .custom).refine (.custom name)).refine (.default default)

/-- The body as a schema. -/
def schema (body : Body κ) : Schema κ := .built body

end Body

end Assay
