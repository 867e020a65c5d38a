import Assay.Validation.Check
import Assay.Validation.Run

/-!
# Steps

What each step does with a value. A step reaches its member schemas only through `Members`, which says
how a member is validated and of what kind it is; so a statement about members carries over to the
step, whatever the depth at which the members are validated.

Items and fields are taken in order, and the first fault ends the step. A member that has no result for
defined input leaves it as it is. A step that finds a value of another category than it is made for
leaves the value alone.
-/
namespace Assay

/-- How member schemas are validated. -/
structure Members (κ : Type) where
  /-- Validate a value, or undefined input, at a place; no result means that it stays undefined. -/
  validate : Schema κ → Option Value → Path → Scope → Run (Option Value)
  /-- The kind of a schema, deferred schemas looked up. -/
  kind : Schema κ → Run Kind

namespace Members

variable {κ : Type}

/-- Validate the items of an array from an index on. -/
def elements (members : Members κ) (schema : Schema κ) (path : Path) (scope : Scope) :
    Nat → List Value → Run (List Value)
  | _, [] => pure []
  | index, item :: rest => do
    let result ← members.validate schema (some item) (path.index index) scope
    let others ← members.elements schema path scope (index + 1) rest
    pure (result.getD item :: others)

/-- Validate the values of an object. -/
def values (members : Members κ) (schema : Schema κ) (path : Path) (scope : Scope) :
    List (String × Value) → Run (List (String × Value))
  | [] => pure []
  | (key, value) :: rest => do
    let result ← members.validate schema (some value) (path.key key) scope
    let others ← members.values schema path scope rest
    pure ((key, result.getD value) :: others)

/-- Validate the keys of an object, each as a text at its field. -/
def keys (members : Members κ) (schema : Schema κ) (path : Path) (scope : Scope) :
    List (String × Value) → Run Unit
  | [] => pure ()
  | (key, _) :: rest => do
    let _ ← members.validate schema (some (.string key)) (path.key key) scope
    members.keys schema path scope rest

/-- Validate declared fields and collect their results; a later result replaces an earlier one. -/
def fields (members : Members κ) (input : List (String × Value)) (path : Path) (scope : Scope) :
    List (String × Schema κ) → List (String × Value) → Run (List (String × Value))
  | [], output => pure output
  | (name, schema) :: rest, output => do
    let result ← members.validate schema (input.lookup name) (path.key name) scope
    let output := match result with
      | some value => Entries.insert name value output
      | none => output
    members.fields input path scope rest output

/-- Validate positions from an index on, those past the end of the array as undefined. A position
without a result is null. -/
def positions (members : Members κ) (path : Path) (scope : Scope) :
    Nat → List (Schema κ) → List Value → Run (List Value)
  | _, [], _ => pure []
  | index, schema :: rest, items => do
    let result ← members.validate schema items.head? (path.index index) scope
    let others ← members.positions path scope (index + 1) rest items.tail
    pure (result.getD .null :: others)

/-- The fault of a union none of whose members accepts a value. -/
def noMemberFault (names : List String) (value : Value) (path : Path) (causes : List Fault) : Fault :=
  .aggregate path (.noMember names value.typeName (causes.map Fault.message)) causes

/-- Try the members of a union in order. Only members whose kind accepts the category of the value
count. If none of them accepts it, lenient validation leaves it as it is. -/
def firstOf (members : Members κ) (names : List String) (value : Value) (path : Path)
    (scope : Scope) : List (Schema κ) → List Fault → Run (Option Value)
  | [], causes =>
    if scope.isStrict then .reject (noMemberFault names value path causes) else pure none
  | schema :: rest, causes => do
    let kind ← members.kind schema
    if kind = .union then .reject (.located path .nestedUnion)
    else if !kind.accepts value.category then members.firstOf names value path scope rest causes
    else
      match ← (members.validate schema (some value) path scope).attempt with
      | .ok result => pure (some (result.getD value))
      | .error fault =>
        Run.note (.rejected path schema.typeName fault.reason)
        members.firstOf names value path scope rest (causes ++ [fault])

end Members

namespace Step

variable {κ : Type}

/-- The entries that no field declares. -/
def undeclared (declared : List (String × Schema κ)) (input : List (String × Value)) :
    List (String × Value) :=
  input.filter fun entry => !(declared.any fun field => field.1 == entry.1)

/-- Validate the declared fields of an object or an instance. An exact shape first refuses fields that
are not declared. The result for a plain object has the fields that were not declared as they were. -/
def runFields (members : Members κ) (declared : List (String × Schema κ)) (exact : Bool)
    (value : Value) (path : Path) (scope : Scope) : Run (Option Value) :=
  match value.fields? with
  | none => pure none
  | some input => do
    let unknown := undeclared declared input
    if exact && scope.isStrict && !unknown.isEmpty then
      .reject (.located path (.unknownFields (Entries.keys unknown)))
    else
      let output ← members.fields input path (scope.withCurrent value) declared []
      match value with
      | .object _ => pure (some (.object (Entries.overlay output unknown)))
      | _ => pure none

/-- Validate an array position by position. Strict validation refuses items beyond the last one. -/
def runPositions (members : Members κ) (schemas : List (Schema κ)) (value : Value) (path : Path)
    (scope : Scope) : Run (Option Value) :=
  match value with
  | .array items =>
    if scope.isStrict && decide (schemas.length < items.length) then
      .reject (.located path (.tooManyItems schemas.length))
    else do
      let results ← members.positions path scope 0 schemas items
      pure (some (.array results))
  | _ => pure none

/-- Take a step with a value. The result is what replaces the value, if anything does. -/
def run (host : Host κ) (members : Members κ) (settings : Settings κ) (step : Step κ)
    (value : Value) (path : Path) (scope : Scope) : Run (Option Value) :=
  match step with
  | .check condition => do
    Run.ofFault (condition.run host value path scope)
    pure none
  | .keys schema =>
    match value with
    | .object entries => do
      members.keys schema path scope entries
      pure none
    | _ => pure none
  | .elements schema =>
    match value with
    | .array items => do
      let results ← members.elements schema path scope 0 items
      pure (some (.array results))
    | _ => pure none
  | .values schema =>
    match value with
    | .object entries => do
      let results ← members.values schema path scope entries
      pure (some (.object results))
    | _ => pure none
  | .fields declared => runFields members declared settings.exact value path scope
  | .positions schemas => runPositions members schemas value path scope
  | .members schemas => members.firstOf (schemas.map Schema.typeName) value path scope schemas []

end Step

end Assay
