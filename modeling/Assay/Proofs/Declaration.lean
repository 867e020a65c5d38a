import Assay.Proofs.Blueprint
import Assay.Proofs.Checks

/-!
# The order of declaration

The declared fields of an object are validated one after the other, and the first one without a
result ends it. But each of them is validated beside the object as it was given, so none sees what
became of another, and fields of different names are put under different keys. So their order makes
no difference to what is accepted nor to the result (`Members.fields_perm`), and none to a shape that
declares them (`Schema.validateAt_reordered`); only which fault comes first depends on it.
-/
namespace Assay

variable {κ : Type} {host : Host κ} {members : Members κ} {path : Path} {scope : Scope}

/-- Fields of different names, validated in any order, are collected to the same entries, or in no
order. -/
theorem Members.fields_perm {declared others : List (String × Schema κ)}
    (perm : declared.Perm others) (distinct : (declared.map Prod.fst).Nodup)
    (input : List (String × Value)) {output : List (String × Value)}
    (sorted : Entries.Sorted output) :
    (members.fields input path scope declared output).result? =
      (members.fields input path scope others output).result? := by
  -- The two loops make the same insertions, so what is collected so far is general.
  induction perm generalizing output with
  | nil => rfl
  | cons field _ ih =>
    have later := (List.nodup_cons.mp distinct).2
    simp only [fields, Run.result?_bind]
    apply Option.bind_congr
    intro outcome _
    cases outcome with
    | none => exact ih later sorted
    | some value => exact ih later (Entries.sorted_insert field.1 value sorted)
  | swap first second rest =>
    have different : second.1 ≠ first.1 := by
      intro same
      simp [same] at distinct
    simp only [fields, Run.result?_bind]
    rw [Option.bind_comm]
    apply Option.bind_congr
    intro one _
    apply Option.bind_congr
    intro other _
    cases one with
    | none => rfl
    | some value =>
      cases other with
      | none => rfl
      | some held =>
        dsimp only
        rw [Entries.insert_comm different.symm value held sorted]
  | trans before _ ih also =>
    have names := (before.map Prod.fst).nodup_iff.mp distinct
    exact (ih distinct sorted).trans (also names sorted)

namespace Step

/-- The steps are the same, or declare the same fields of different names in some orders. -/
inductive Reordered : Step κ → Step κ → Prop
  /-- The same step. -/
  | same (step : Step κ) : Reordered step step
  /-- The same fields, under different names. -/
  | fields {declared others : List (String × Schema κ)} (perm : declared.Perm others)
      (distinct : (declared.map Prod.fst).Nodup) : Reordered (.fields declared) (.fields others)

namespace Reordered

variable {step twin : Step κ}

/-- Orders may be exchanged. -/
theorem symm (reordered : Reordered step twin) : Reordered twin step := by
  cases reordered with
  | same => exact .same step
  | fields perm distinct =>
    exact .fields perm.symm ((perm.map Prod.fst).nodup_iff.mp distinct)

/-- A step with its fields in another order has the same role. -/
theorem role (reordered : Reordered step twin) : step.role = twin.role := by
  cases reordered <;> rfl

/-- A step with its fields in another order is left out alike. -/
theorem isSkipped (reordered : Reordered step twin) (settings : Settings κ) (typeName : String)
    (value : Value) : step.isSkipped settings value =
      twin.isSkipped { settings with typeName := typeName } value := by
  cases reordered <;> rfl

/-- A step with its fields in another order has the same result, or none either. -/
theorem run (reordered : Reordered step twin) (settings : Settings κ) (typeName : String)
    (value : Value) : (step.run host members settings value path scope).result? =
      (twin.run host members { settings with typeName := typeName } value path scope).result? := by
  cases reordered with
  | same => cases step <;> rfl
  | @fields declared others perm distinct =>
    simp only [Step.run, runFields]
    cases value.fields? with
    | none => rfl
    | some input =>
      have unknown : undeclared declared input = undeclared others input :=
        undeclared_congr (fun _ => (perm.map Prod.fst).mem_iff) input
      have collected :
          (members.fields input path (scope.withCurrent value) declared []).result? =
            (members.fields input path (scope.withCurrent value) others []).result? :=
        Members.fields_perm perm distinct input List.Pairwise.nil
      dsimp only
      rw [unknown]
      split
      · rfl
      · simp only [Run.result?_bind, collected]

end Reordered

end Step

namespace Body

/-- The bodies differ only in the order in which they declare fields, and so in the type that is
shown. -/
structure Reordered (body twin : Body κ) : Prop where
  /-- The settings are the same but for the type that is shown. -/
  settings : twin.settings = { body.settings with typeName := twin.settings.typeName }
  /-- The steps are the same but for the order of declared fields. -/
  steps : List.Forall₂ Step.Reordered body.steps twin.steps

namespace Reordered

variable {body twin : Body κ}

/-- Orders may be exchanged. -/
theorem symm (reordered : Reordered body twin) : Reordered twin body where
  settings := by rw [reordered.settings]
  steps := (reordered.steps.imp fun _ _ same => same.symm).flip

/-- The same criterion keeps bodies apart in the order of fields only. -/
theorem refine (reordered : Reordered body twin) (criterion : Criterion κ) :
    Reordered (body.refine criterion) (twin.refine criterion) := by
  obtain ⟨same, listed⟩ := reordered
  obtain ⟨settings, steps⟩ := body
  obtain ⟨shown, later⟩ := twin
  dsimp only at same listed
  have registered : criterion.step? shown = criterion.step? settings := by
    rw [same]
    cases criterion <;> rfl
  constructor
  · dsimp only [Body.refine]
    rw [same]
    cases criterion <;> rfl
  · dsimp only [Body.refine]
    rw [registered]
    apply List.rel_append listed
    exact List.forall₂_same.mpr fun step _ => .same step

/-- The same criteria keep bodies apart in the order of fields only. -/
theorem refineAll (reordered : Reordered body twin) (criteria : List (Criterion κ)) :
    Reordered (criteria.foldl Body.refine body) (criteria.foldl Body.refine twin) := by
  induction criteria generalizing body twin with
  | nil => exact reordered
  | cons criterion rest ih => exact ih (reordered.refine criterion)

/-- Shapes that declare the same fields of different names in some orders, refined by the same
criteria, differ in the order of fields only. -/
theorem of_shape {declared others : List (String × Schema κ)} (perm : declared.Perm others)
    (distinct : (declared.map Prod.fst).Nodup) {criteria : List (Criterion κ)}
    (built : (Body.shape declared).applyAll criteria = .ok body)
    (also : (Body.shape others).applyAll criteria = .ok twin) : Reordered body twin := by
  have start : Reordered (Body.shape declared) (Body.shape others) :=
    ⟨rfl, .cons (.fields perm distinct) .nil⟩
  rw [applyAll_ok built, applyAll_ok also]
  exact start.refineAll criteria

/-- The steps of a body with its fields in another order have the same result, or none either. -/
theorem takeSteps_eq {settings : Settings κ} {steps later : List (Step κ)} (typeName : String)
    (reordered : List.Forall₂ Step.Reordered steps later) (value : Value) :
    (takeSteps host members settings path scope steps value).result? =
      (takeSteps host members { settings with typeName := typeName } path scope later
        value).result? := by
  induction reordered generalizing value with
  | nil => rfl
  | cons head _ ih =>
    rw [takeSteps, takeSteps, ← head.role, ← head.isSkipped settings typeName value]
    split
    · exact ih value
    · simp only [Run.result?_bind, ← head.run settings typeName value, ih]

/-- A body with its fields in another order accepts what the body accepts, with the same result. -/
theorem refines (reordered : Reordered body twin) (value : Option Value) :
    (body.validate host members value path scope).Refines
      (twin.validate host members value path scope) := by
  obtain ⟨same, listed⟩ := reordered
  obtain ⟨settings, steps⟩ := body
  obtain ⟨shown, later⟩ := twin
  dsimp only at same listed
  rw [same]
  apply validate_refines
  intro given final accepted
  rwa [← takeSteps_eq shown.typeName listed given]

end Reordered

end Body

namespace Schema

/-- A body with its declared fields in another order accepts the same input, with the same result. -/
theorem result?_reordered {body twin : Body κ} (reordered : body.Reordered twin) (depth : Nat)
    (value : Option Value) :
    ((built body).validateAt host depth value path scope).result? =
      ((built twin).validateAt host depth value path scope).result? := by
  cases depth with
  | zero => rfl
  | succ depth =>
    have forth : (body.validate host (membersAt host depth) value path scope).Refines
        (twin.validate host (membersAt host depth) value path scope) := reordered.refines value
    exact forth.antisymm (reordered.symm.refines value)

/-- A shape that declares the same fields, of different names, in another order, and is refined by
the same criteria, accepts the same input, with the same result. -/
theorem validateAt_reordered (host : Host κ) (depth : Nat)
    (declared others : List (String × Schema κ)) (perm : declared.Perm others)
    (distinct : (declared.map Prod.fst).Nodup)
    (criteria : List (Criterion κ)) (body twin : Body κ)
    (refined : (Body.shape declared).applyAll criteria = .ok body)
    (also : (Body.shape others).applyAll criteria = .ok twin) (value : Option Value) (path : Path)
    (scope : Scope) :
    ((built body).validateAt host depth value path scope).result? =
      ((built twin).validateAt host depth value path scope).result? :=
  result?_reordered (.of_shape perm distinct refined also) depth value

/-- A person may be declared with the alias after the name beside which alone it may be given, and
be asked to have nothing else. -/
theorem validateAt_reordered_person :
    let given : Value := .object [("alias", .string "a"), ("name", .string "b")]
    let body := (Body.shape person).refine (.exact true)
    let twin := (Body.shape person.reverse).refine (.exact true)
    person.Perm person.reverse ∧ (person.map Prod.fst).Nodup ∧
      (Body.shape person).applyAll [.exact true] = .ok body ∧
      (Body.shape person.reverse).applyAll [.exact true] = .ok twin ∧
      ((built body).validateAt people 3 (some given) .root (.new .strict)).result? =
        some (some given) ∧
      ((built twin).validateAt people 3 (some given) .root (.new .strict)).result? =
        some (some given) := by
  intro given body twin
  have perm : person.Perm person.reverse := (List.reverse_perm person).symm
  have distinct : (person.map Prod.fst).Nodup := by decide
  refine ⟨perm, distinct, rfl, rfl, rfl, ?_⟩
  rw [← validateAt_reordered people 3 person person.reverse perm distinct [.exact true] body twin
    rfl rfl (some given) .root (.new .strict)]
  rfl

end Schema

end Assay
