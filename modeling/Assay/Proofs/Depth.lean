import Assay.Proofs.Agreement
import Assay.Proofs.Reach

/-!
# Depth

The depth of a validation only says when to give up: a validation that ends at one depth ends the
same at every greater depth (`Schema.validateAt_agrees`), so what a schema makes of its input does
not depend on it. A schema returns an outcome, or fails, when it does so at some depth
(`Schema.Returns`, `Schema.Fails`).
-/
namespace Assay

variable {κ : Type}

/-- The comparison of validations of the same schemas in the same surroundings. -/
def Comparison.same : Comparison κ :=
  .inPlace Eq Eq (fun _ => rfl) fun _ _ _ _ listed caused _ _ => by
    rw [List.forall₂_eq_eq_eq] at listed caused
    rw [listed, caused]

/-- A body is like itself. -/
theorem Body.Alike.refl (host : Host κ) (body : Body κ) : Alike .same host host body body :=
  .inPlace rfl (List.forall₂_same.mpr fun step _ => .refl step fun _ _ => rfl)

namespace Schema

variable {host : Host κ} {path : Path} {scope : Scope}

/-- A body needs no depth to know its kind. -/
@[simp] theorem resolvedKind_built (depth : Nat) (body : Body κ) :
    (built body).resolvedKind host depth = pure body.settings.kind := by
  cases depth <;> rfl

/-- A kind found to one depth is found to every greater depth. -/
theorem resolvedKind_agrees {alike : Fault → Fault → Prop} {depth more : Nat}
    (enough : depth ≤ more) (schema : Schema κ) :
    (schema.resolvedKind host depth).Agrees alike (schema.resolvedKind host more) := by
  induction depth generalizing more schema with
  | zero =>
    cases schema with
    | built body =>
      rw [resolvedKind_built, resolvedKind_built]
      exact .pure _
    | deferred name => exact .unfinished _
  | succ depth ih =>
    obtain ⟨more, rfl⟩ : ∃ less, more = less + 1 := ⟨more - 1, by omega⟩
    cases schema with
    | built body =>
      rw [resolvedKind_built, resolvedKind_built]
      exact .pure _
    | deferred name =>
      have further : depth ≤ more := by omega
      exact (Run.Agrees.ofMisuse _).bind fun target => ih further target

/-- A validation that ends at one depth ends the same at every greater depth. -/
theorem validateAt_agrees {depth more : Nat} (enough : depth ≤ more) (schema : Schema κ)
    (value : Option Value) (path : Path) (scope : Scope) :
    (schema.validateAt host depth value path scope).Agrees Eq
      (schema.validateAt host more value path scope) := by
  induction depth generalizing more schema value path scope with
  | zero => exact .unfinished _
  | succ depth ih =>
    obtain ⟨more, rfl⟩ : ∃ less, more = less + 1 := ⟨more - 1, by omega⟩
    have further : depth ≤ more := by omega
    cases schema with
    | built body =>
      have agree : (membersAt host depth).Agree .same (membersAt host more) := by
        rintro schema _ rfl
        refine ⟨?_, resolvedKind_agrees further schema⟩
        rintro value path scope _ _ ⟨rfl, rfl⟩
        exact ih further schema value path scope
      exact Body.validate_agrees (.refl host body) agree ⟨rfl, rfl⟩ value
    | deferred name =>
      exact (Run.Agrees.ofMisuse _).bind fun target => ih further target value path scope

/-- A kind at one depth is the kind at every greater depth. -/
theorem resolvedKind_of_le {depth more : Nat} (enough : depth ≤ more) {schema : Schema κ}
    {kind : Kind} (found : (schema.resolvedKind host depth).result? = some kind) :
    (schema.resolvedKind host more).result? = some kind := by
  have agrees : (schema.resolvedKind host depth).Agrees Eq (schema.resolvedKind host more) :=
    resolvedKind_agrees enough schema
  exact agrees.result? found

/-- An outcome at one depth is the outcome at every greater depth. -/
theorem result?_of_le {depth more : Nat} (enough : depth ≤ more) {schema : Schema κ}
    {value outcome : Option Value}
    (accepted : (schema.validateAt host depth value path scope).result? = some outcome) :
    (schema.validateAt host more value path scope).result? = some outcome :=
  (validateAt_agrees enough schema value path scope).result? accepted

/-- A fault at one depth is the fault at every greater depth. -/
theorem fault?_of_le {depth more : Nat} (enough : depth ≤ more) {schema : Schema κ}
    {value : Option Value} {fault : Fault}
    (rejected : (schema.validateAt host depth value path scope).fault? = some fault) :
    (schema.validateAt host more value path scope).fault? = some fault := by
  obtain ⟨other, found, rfl⟩ := (validateAt_agrees enough schema value path scope).fault? rejected
  exact found

/-- Validated to a depth that suffices, the schema ends with the outcome. -/
def Returns (host : Host κ) (schema : Schema κ) (value : Option Value) (path : Path) (scope : Scope)
    (outcome : Option Value) : Prop :=
  ∃ depth, (schema.validateAt host depth value path scope).result? = some outcome

/-- Validated to a depth that suffices, the schema ends with a fault. -/
def Fails (host : Host κ) (schema : Schema κ) (value : Option Value) (path : Path) (scope : Scope) :
    Prop :=
  ∃ depth fault, (schema.validateAt host depth value path scope).fault? = some fault

end Schema

end Assay
