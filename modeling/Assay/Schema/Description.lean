import Assay.Schema.Criterion
import Assay.Text.Quoted

/-!
# Schemas in diagnostics

How schemas, their steps and their defaults show themselves. What a step does stays hidden: only its
role and whether an optional field at its default escapes it are shown.
-/
namespace Assay

variable {κ : Type}

/-- The name of a role. -/
def Role.describe : Role → String
  | check => "Check"
  | rebuild => "Transform"

/-- A step in diagnostics. -/
def Step.describe (step : Step κ) : String :=
  let skips := if step.isAboutContent then "true" else "false"
  "Validator \x7b role: " ++ step.role.describe ++ ", skip_if_optional: " ++ skips ++ ", .. \x7d"

/-- A schema in diagnostics: the type that it shows. -/
def Schema.describe (schema : Schema κ) : String := "SchemaRef(" ++ quoted schema.typeName ++ ")"

/-- A deferred schema in diagnostics, which keeps its name to itself. -/
def deferredDescription : String := "LazySchema \x7b .. \x7d"

/-- A default that is not fixed, in diagnostics. -/
def Default.describe? : Default κ → Option String
  | undefined => some "Undefined"
  | fixed _ => none
  | computed _ | now => some "Factory(..)"

end Assay
