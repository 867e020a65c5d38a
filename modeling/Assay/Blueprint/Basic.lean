import Assay.Blueprint.Options
import Assay.Schema.Criterion
import Assay.Validation.Basic

/-!
# Blueprints

A blueprint is a list of declared fields with options: the shape of the fields, exact unless undeclared
fields are kept, validated as an outermost value in the mode of the options. Faults carry the labels of
the options.
-/
namespace Assay

/-- Declared fields with options. -/
structure Blueprint (κ : Type) where
  /-- The shape of the fields. -/
  body : Body κ
  /-- How values are validated. -/
  options : Options

namespace Blueprint

variable {κ : Type}

/-- The blueprint of declared fields. -/
def new (declared : List (String × Schema κ)) (options : Options) : Blueprint κ :=
  ⟨(Body.shape declared).refine (.exact !options.unknown), options⟩

/-- The shape of a blueprint as a schema. -/
def schema (blueprint : Blueprint κ) : Schema κ := blueprint.body.schema

/-- Validate an outermost value. -/
def validate (host : Host κ) (depth : Nat) (blueprint : Blueprint κ) (value : Value) : Run Value :=
  let run := blueprint.schema.validateAt host depth (some value) .root
    (.ofRoot value blueprint.options.mode)
  Run.mapFault (·.withLabels blueprint.options.labels) do
    let result ← run
    pure (result.getD value)

end Blueprint

/-- Validate a value by declared fields and options. -/
def validateBlueprint {κ : Type} (host : Host κ) (depth : Nat) (value : Value)
    (declared : List (String × Schema κ)) (options : Options) : Run Value :=
  (Blueprint.new declared options).validate host depth value

end Assay
