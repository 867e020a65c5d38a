import Assay.Validation.Step

/-!
# Validation

A body meets its input in this order. Undefined input is refused if the field is required, else the
default takes its place; without a default it stays undefined. Defined input is noted if it is
deprecated and refused if it must never be used. Null is returned as it is where it is allowed. Then
come the type check, the steps in order, each of which may replace the value, and the coercion to the
kind. Lenient validation never refuses anything before the steps and takes only those that rebuild.

Deferred schemas may refer to one another in circles, so validation is a recursion on a depth, the
number of members that may lie inside one another.
-/
namespace Assay

namespace Default

variable {κ : Type}

/-- The value that takes the place of undefined input at a place. -/
def resolve (host : Host κ) (default : Default κ) (path : Path) (scope : Scope) : Option Value :=
  match default with
  | undefined => none
  | fixed value => some value
  | computed name => some (host.compute name path scope)
  | now => some (.date host.now)

end Default

namespace Body

variable {κ : Type}

/-- The value to go on with: the defined input or the default; nothing if the input stays undefined.
A deprecated field is noted, and input that may not be as it is, is refused. -/
def receive (host : Host κ) (settings : Settings κ) (value : Option Value) (path : Path)
    (scope : Scope) : Run (Option Value) :=
  match value with
  | none =>
    if settings.required && scope.isStrict then .reject (.located path .missing)
    else pure (settings.default.resolve host path scope)
  | some value => do
    match settings.deprecated with
    | some message => Run.note (.deprecated path message)
    | none => pure ()
    if settings.never && scope.isStrict then .reject (.located path .neverUsed)
    else pure (some value)

/-- Take the steps in order, each with the value that the ones before it left. -/
def takeSteps (host : Host κ) (members : Members κ) (settings : Settings κ) (path : Path)
    (scope : Scope) : List (Step κ) → Value → Run Value
  | [], value => pure value
  | step :: rest, value =>
    if (!scope.isStrict && step.role == .check) || step.isSkipped settings value then
      takeSteps host members settings path scope rest value
    else do
      let replaced ← step.run host members settings value path scope
      takeSteps host members settings path scope rest (replaced.getD value)

/-- Check the type of a value that is not null, take the steps and coerce what they leave. -/
def process (host : Host κ) (members : Members κ) (body : Body κ) (value : Value) (path : Path)
    (scope : Scope) : Run Value :=
  if scope.isStrict && !body.settings.kind.check value then
    .reject (.located path (.wrongKind body.settings.kind))
  else do
    let result ← takeSteps host members body.settings path scope body.steps value
    pure (body.settings.kind.cast result)

/-- Validate a value, or undefined input, at a place. -/
def validate (host : Host κ) (members : Members κ) (body : Body κ) (value : Option Value)
    (path : Path) (scope : Scope) : Run (Option Value) := do
  match ← receive host body.settings value path scope with
  | none => pure none
  | some value =>
    if value.isNull then
      if body.settings.nullable || !scope.isStrict then pure (some .null)
      else .reject (.located path .nullValue)
    else
      let result ← body.process host members value path scope
      pure (some result)

end Body

namespace Schema

variable {κ : Type}

/-- The kind of a schema, deferred schemas looked up to a depth. -/
def resolvedKind (host : Host κ) : Nat → Schema κ → Run Kind
  | _, built body => pure body.settings.kind
  | 0, deferred _ => .unfinished
  | depth + 1, deferred name => do
    let target ← Run.ofMisuse (host.definitions name)
    target.resolvedKind host depth

/-- Validate a value, or undefined input, at a place, with members lying inside one another to a
depth. -/
def validateAt (host : Host κ) : Nat → Schema κ → Option Value → Path → Scope → Run (Option Value)
  | 0, _, _, _, _ => .unfinished
  | depth + 1, built body, value, path, scope =>
    body.validate host
      ⟨fun member => member.validateAt host depth, fun member => member.resolvedKind host depth⟩
      value path scope
  | depth + 1, deferred name, value, path, scope => do
    let target ← Run.ofMisuse (host.definitions name)
    target.validateAt host depth value path scope

/-- How the members of a schema are validated to a depth. -/
def membersAt (host : Host κ) (depth : Nat) : Members κ :=
  ⟨fun member => member.validateAt host depth, fun member => member.resolvedKind host depth⟩

/-- Validate an outermost value in a mode; what stays undefined is null. -/
def validateWith (host : Host κ) (depth : Nat) (schema : Schema κ) (value : Value) (mode : Mode) :
    Run Value := do
  let result ← schema.validateAt host depth (some value) .root (.new mode)
  pure (result.getD .null)

/-- Validate an outermost value strictly. -/
def validate (host : Host κ) (depth : Nat) (schema : Schema κ) (value : Value) : Run Value :=
  schema.validateWith host depth value .strict

/-- Validate an outermost value that is left out. -/
def validateMissing (host : Host κ) (depth : Nat) (schema : Schema κ) : Run (Option Value) :=
  schema.validateAt host depth none .root (.new .strict)

end Schema

end Assay
