import Assay.Blueprint.Basic
import Assay.Proofs.Depth
import Assay.Proofs.Visits

/-!
# Undefined results

Every schema starts with a default, and only the criterion that forbids its input takes the default
away, so undefined input stays undefined exactly where that criterion came after every criterion that
gives a default (`Body.applyAll_default_iff`). Defined input never turns undefined, whatever the
schema, so a step that calls with defined input does not see what it would put in the place of an
undefined result (`Step.run_alikeWhereDefined`). Only tuples put something there, at positions that
nothing was given for (`Schema.validateAt_undefined`).
-/
namespace Assay

variable {κ : Type}

/-! ## The default that criteria leave -/

namespace Criterion

/-- Whether a criterion gives a default. -/
def givesDefault : Criterion κ → Bool
  | default _ | computedDefault _ => true
  | _ => false

/-- One of the criteria takes the default away, and none after it gives one. -/
def EndsWithout (criteria : List (Criterion κ)) : Prop :=
  ∃ before after, criteria = before ++ .never :: after ∧
    ∀ criterion ∈ after, criterion.givesDefault = false

/-- A criterion before others matters only if it takes the default away and they give none. -/
theorem endsWithout_cons {criterion : Criterion κ} {rest : List (Criterion κ)} :
    EndsWithout (criterion :: rest) ↔
      EndsWithout rest ∨ criterion = .never ∧ ∀ later ∈ rest, later.givesDefault = false := by
  constructor
  · rintro ⟨before, after, same, none⟩
    cases before with
    | nil =>
      obtain ⟨rfl, rfl⟩ := List.cons.inj same
      exact .inr ⟨rfl, none⟩
    | cons first others =>
      obtain ⟨rfl, rfl⟩ := List.cons.inj same
      exact .inl ⟨others, after, rfl, none⟩
  · rintro (⟨before, after, rfl, none⟩ | ⟨rfl, none⟩)
    · exact ⟨criterion :: before, after, rfl, none⟩
    · exact ⟨[], rest, rfl, none⟩

end Criterion

namespace Body

/-- A criterion leaves no default if it takes it away, or if there was none and it gives none. -/
theorem refine_default_iff {body : Body κ} {criterion : Criterion κ} :
    (body.refine criterion).settings.default = .undefined ↔
      criterion = .never ∨
        criterion.givesDefault = false ∧ body.settings.default = .undefined := by
  cases criterion <;> simp [refine, Criterion.settings, Criterion.givesDefault]

/-- Criteria leave no default if they end without one, or if there was none and they give none. -/
theorem foldl_refine_default_iff {criteria : List (Criterion κ)} {body : Body κ} :
    (criteria.foldl refine body).settings.default = .undefined ↔
      Criterion.EndsWithout criteria ∨
        (∀ criterion ∈ criteria, criterion.givesDefault = false) ∧
          body.settings.default = .undefined := by
  induction criteria generalizing body with
  | nil => simp [Criterion.EndsWithout]
  | cons criterion rest ih =>
    rw [List.foldl_cons, ih, refine_default_iff, Criterion.endsWithout_cons, List.forall_mem_cons]
    tauto

/-- A body that was built has no default exactly when its criteria end without one. -/
theorem applyAll_default_iff {start body : Body κ} {criteria : List (Criterion κ)}
    (started : start.Started) (applied : start.applyAll criteria = .ok body) :
    body.settings.default = .undefined ↔ Criterion.EndsWithout criteria := by
  rw [applyAll_ok applied, foldl_refine_default_iff]
  exact or_iff_left fun absent => started.default_ne_undefined absent.2

end Body

/-! ## Validations without a result -/

variable {host : Host κ} {path : Path} {scope : Scope}

/-- A default is missing at every place if it is undefined, and at none if it is not. -/
theorem Default.resolve_eq_none_iff {default : Default κ} :
    default.resolve host path scope = none ↔ default = .undefined := by
  cases default <;> simp [resolve]

/-- Undefined input stays undefined where it is not refused and there is no default. -/
theorem Body.validate_none_iff {members : Members κ} {body : Body κ} {value : Option Value} :
    (body.validate host members value path scope).result? = some none ↔
      value = none ∧ ¬ (body.settings.required = true ∧ scope.isStrict = true) ∧
        body.settings.default = .undefined := by
  cases value with
  | some given =>
    refine ⟨fun accepted => ?_, fun absent => by cases absent.1⟩
    obtain ⟨result, found⟩ := validate_defined accepted
    cases found
  | none =>
    have missing : body.settings.default.resolve host path scope = none ↔
        body.settings.default = .undefined := Default.resolve_eq_none_iff
    rw [← missing]
    constructor
    · intro accepted
      rcases validate_accepted accepted with ⟨received, _⟩ | ⟨_, _, other⟩ | ⟨_, _, _, _, _, other⟩
      · obtain ⟨resolved, allowed, _⟩ := receive_accepted received
        rw [Option.none_or] at resolved
        refine ⟨rfl, fun refused => ?_, resolved.symm⟩
        rw [allowed rfl refused.1] at refused
        cases refused.2
      · cases other
      · cases other
    · rintro ⟨_, allowed, absent⟩
      rw [← Bool.and_eq_true_iff] at allowed
      have received : receive host body.settings none path scope = pure none := by
        rw [receive, if_neg allowed, absent]
      rw [validate, received]
      rfl

namespace Schema

/-- Names cost depth and change nothing else: as much further down, the schema is validated as the
body that it stands for. -/
theorem ResolvesTo.validateAt_eq {schema : Schema κ} {body : Body κ}
    (stands : schema.ResolvesTo host body) :
    ∃ names, ∀ depth value path scope, schema.validateAt host (depth + names) value path scope =
      (Schema.built body).validateAt host depth value path scope := by
  induction stands with
  | built body => exact ⟨0, fun _ _ _ _ => rfl⟩
  | @deferred name target body found _ ih =>
    obtain ⟨names, same⟩ := ih
    refine ⟨names + 1, fun depth value path scope => ?_⟩
    rw [← same, ← Nat.add_assoc, validateAt, found]
    rfl

/-- A schema leaves undefined input undefined where the body that it stands for does not refuse it
and has no default. -/
theorem ResolvesTo.returns_none_iff {schema : Schema κ} {body : Body κ}
    (stands : schema.ResolvesTo host body) {value : Option Value} :
    schema.Returns host value path scope none ↔
      value = none ∧ ¬ (body.settings.required = true ∧ scope.isStrict = true) ∧
        body.settings.default = .undefined := by
  constructor
  · rintro ⟨depth, accepted⟩
    obtain ⟨found, inner, _, resolved, ended⟩ := validateAt_accepted accepted
    obtain rfl := stands.unique resolved
    exact Body.validate_none_iff.mp ended
  · intro left
    obtain ⟨names, same⟩ := stands.validateAt_eq
    refine ⟨0 + 1 + names, ?_⟩
    rw [same]
    exact Body.validate_none_iff.mpr left

/-- Defined input is never left undefined. -/
theorem not_returns_none (schema : Schema κ) (value : Value) :
    ¬ schema.Returns host (some value) path scope none := by
  rintro ⟨depth, accepted⟩
  obtain ⟨body, inner, _, _, ended⟩ := validateAt_accepted accepted
  obtain ⟨result, found⟩ := Body.validate_defined ended
  cases found

/-- The schema stands for the body, which criteria made of one that schemas start with. -/
structure MadeBy (host : Host κ) (schema : Schema κ) (body : Body κ)
    (criteria : List (Criterion κ)) : Prop where
  /-- The body is what the schema stands for. -/
  stands : schema.ResolvesTo host body
  /-- The criteria made the body. -/
  applied : ∃ start : Body κ, start.Started ∧ start.applyAll criteria = .ok body

/-- A schema that criteria made leaves undefined input undefined where it does not refuse it and the
criteria end without a default. -/
theorem MadeBy.returns_none_iff {schema : Schema κ} {body : Body κ} {criteria : List (Criterion κ)}
    (made : schema.MadeBy host body criteria) {value : Option Value} :
    schema.Returns host value path scope none ↔
      value = none ∧ ¬ (body.settings.required = true ∧ scope.isStrict = true) ∧
        Criterion.EndsWithout criteria := by
  obtain ⟨start, started, applied⟩ := made.applied
  rw [made.stands.returns_none_iff, Body.applyAll_default_iff started applied]

end Schema

/-- Of the steps that call on schemas, all but those on fields and positions call with defined
input. -/
theorem Step.Calls.input_ne_none {step : Step κ} {value : Value} {schema : Schema κ}
    {input : Option Value} {place : Path} {inside : Scope}
    (calls : step.Calls value path scope schema input place inside)
    (given : (∀ declared, step ≠ .fields declared) ∧ ∀ schemas, step ≠ .positions schemas) :
    input ≠ none := by
  cases calls with
  | field => exact absurd rfl (given.1 _)
  | position => exact absurd rfl (given.2 _)
  | _ => exact Option.some_ne_none _

/-- The calls of a step other than those on fields and positions never have an undefined result. -/
theorem Step.Calls.not_returns_none {step : Step κ} {value : Value} {schema : Schema κ}
    {input : Option Value} {place : Path} {inside : Scope}
    (calls : step.Calls value path scope schema input place inside)
    (given : (∀ declared, step ≠ .fields declared) ∧ ∀ schemas, step ≠ .positions schemas) :
    ¬ schema.Returns host input place inside none := by
  obtain ⟨value, rfl⟩ := Option.ne_none_iff_exists'.mp (calls.input_ne_none given)
  exact schema.not_returns_none value

/-- Members that answer alike wherever there is an answer other than undefined have the same kinds and
differ in nothing else. -/
structure Members.AlikeWhereDefined (members others : Members κ) : Prop where
  /-- They are of the same kinds. -/
  kinds : members.kind = others.kind
  /-- What does not leave its input undefined is answered alike. -/
  answers : ∀ schema input place inside,
    (members.validate schema input place inside).result? ≠ some none →
      members.validate schema input place inside = others.validate schema input place inside

/-- The members, with a value in the place of what they leave undefined. -/
def Members.filling (members : Members κ) (fallback : Value) : Members κ where
  validate schema input place inside :=
    match (members.validate schema input place inside).result? with
    | some none => pure (some fallback)
    | _ => members.validate schema input place inside
  kind := members.kind

/-- Filling in what is undefined leaves everything else as it is. -/
theorem Members.alikeWhereDefined_filling (members : Members κ) (fallback : Value) :
    members.AlikeWhereDefined (members.filling fallback) := by
  refine ⟨rfl, fun schema input place inside defined => ?_⟩
  rw [filling]
  dsimp only
  split
  · rename_i undefined
    exact absurd undefined defined
  · rfl

/-- A step other than those on fields and positions is taken alike whatever is answered in the place of
undefined results, so what it would put there is never seen. -/
theorem Step.run_alikeWhereDefined {depth : Nat} {others : Members κ}
    (alike : (Schema.membersAt host depth).AlikeWhereDefined others) {step : Step κ}
    (given : (∀ declared, step ≠ .fields declared) ∧ ∀ schemas, step ≠ .positions schemas)
    (settings : Settings κ) (value : Value) :
    step.run host (Schema.membersAt host depth) settings value path scope =
      step.run host others settings value path scope := by
  refine Step.run_determined alike.kinds fun schema input place inside calls => ?_
  exact alike.answers schema input place inside fun undefined =>
    calls.not_returns_none given ⟨depth, undefined⟩

/-- A blueprint returns what its shape does, and nothing in the place of it. -/
theorem Blueprint.result?_validate (depth : Nat) (blueprint : Blueprint κ) (value result : Value) :
    (blueprint.validate host depth value).result? = some result ↔
      (blueprint.schema.validateAt host depth (some value) .root
        (.ofRoot value blueprint.options.mode)).result? = some (some result) := by
  rw [validate, Run.result?_mapFault, Run.result?_bind_pure, Option.map_eq_some_iff]
  constructor
  · rintro ⟨outcome, accepted, same⟩
    cases outcome with
    | none => exact absurd ⟨depth, accepted⟩ (Schema.not_returns_none _ _)
    | some found =>
      obtain rfl : found = result := same
      exact accepted
  · intro accepted
    exact ⟨some result, accepted, rfl⟩

/-- A position of an accepted tuple holds what its schema made of the item there; it is filled with
null only where there is no item and the criteria of the schema end without a default. -/
theorem Members.positions_filled {depth : Nat} {schemas : List (Schema κ)}
    {items results : List Value}
    (accepted : ((Schema.membersAt host depth).positions path scope 0 schemas items).result? =
      some results) {index : Nat} {schema : Schema κ} (found : schemas[index]? = some schema)
    {body : Body κ} {criteria : List (Criterion κ)} (made : schema.MadeBy host body criteria) :
    ∃ outcome,
      (schema.validateAt host depth items[index]? (path.index index) scope).result? = some outcome ∧
      results[index]? = some (outcome.getD .null) ∧
      (outcome = none → items[index]? = none ∧
        ¬ (body.settings.required = true ∧ scope.isStrict = true) ∧
        Criterion.EndsWithout criteria) := by
  obtain ⟨outcome, ended, stands⟩ := (positions_accepted accepted).2 index schema found
  rw [Nat.zero_add] at ended
  refine ⟨outcome, ended, stands, ?_⟩
  rintro rfl
  exact made.returns_none_iff.mp ⟨depth, ended⟩

/-- Undefined results come from undefined input that is not refused, under criteria that end without
a default, and from nothing else. So the calls of a step other than those on fields and positions
never have one, and the step is taken alike whatever is answered in the place of one; a blueprint
returns what its shape does, and a tuple is filled with null only at positions of that sort. -/
theorem Schema.validateAt_undefined (host : Host κ) :
    (∀ (schema : Schema κ) (body : Body κ) (criteria : List (Criterion κ)),
      schema.MadeBy host body criteria → ∀ (value : Option Value) (path : Path) (scope : Scope),
        schema.Returns host value path scope none ↔
          value = none ∧ ¬ (body.settings.required = true ∧ scope.isStrict = true) ∧
            Criterion.EndsWithout criteria) ∧
    (∀ (step : Step κ) (value : Value) (path : Path) (scope : Scope) (schema : Schema κ)
      (input : Option Value) (place : Path) (inside : Scope),
      step.Calls value path scope schema input place inside →
      (∀ declared, step ≠ .fields declared) → (∀ schemas, step ≠ .positions schemas) →
        ¬ schema.Returns host input place inside none) ∧
    (∀ (depth : Nat) (others : Members κ), (membersAt host depth).AlikeWhereDefined others →
      ∀ (step : Step κ) (settings : Settings κ) (value : Value) (path : Path) (scope : Scope),
      (∀ declared, step ≠ .fields declared) → (∀ schemas, step ≠ .positions schemas) →
        step.run host (membersAt host depth) settings value path scope =
          step.run host others settings value path scope) ∧
    (∀ (depth : Nat) (blueprint : Blueprint κ) (value result : Value),
      (blueprint.validate host depth value).result? = some result ↔
        (blueprint.schema.validateAt host depth (some value) .root
          (.ofRoot value blueprint.options.mode)).result? = some (some result)) ∧
    ∀ (depth : Nat) (schemas : List (Schema κ)) (items results : List Value) (path : Path)
      (scope : Scope),
      ((membersAt host depth).positions path scope 0 schemas items).result? = some results →
      ∀ (index : Nat) (schema : Schema κ) (body : Body κ) (criteria : List (Criterion κ)),
        schemas[index]? = some schema → schema.MadeBy host body criteria →
        ∃ outcome, (schema.validateAt host depth items[index]? (path.index index) scope).result? =
            some outcome ∧
          results[index]? = some (outcome.getD .null) ∧
          (outcome = none → items[index]? = none ∧
            ¬ (body.settings.required = true ∧ scope.isStrict = true) ∧
            Criterion.EndsWithout criteria) := by
  refine ⟨fun schema body criteria made value path scope => made.returns_none_iff,
    fun step value path scope schema input place inside calls fields positions =>
      calls.not_returns_none ⟨fields, positions⟩,
    fun depth others alike step settings value path scope fields positions =>
      Step.run_alikeWhereDefined alike ⟨fields, positions⟩ settings value,
    Blueprint.result?_validate, fun depth schemas items results path scope accepted index schema body
      criteria found made => Members.positions_filled accepted found made⟩

/-! ## Withdrawn entries, an example -/

/-- A second entry that was optional once and may no longer be given. -/
def withdrawing : List (Criterion Unit) := [.default (.string "none"), .never, .nullable true]

/-- The second entry. -/
def withdrawn : Body Unit := withdrawing.foldl Body.refine (.ofKind .string)

/-- A host that knows it by name. -/
def withdrawals : Host Unit where
  callback _ _ _ := none
  compute _ _ _ := .null
  now := ⟨0, 0⟩
  definitions name := if name = "withdrawn" then .ok (.built withdrawn) else .error .noMembers

/-- The withdrawn entry stays undefined, has a result for whatever is given as an item of an array, and
is null in a pair that ends before it. -/
theorem Schema.validateAt_undefined_withdrawn :
    let schema : Schema Unit := .deferred "withdrawn"
    let pair := [.built (.ofKind .string), schema]
    schema.MadeBy withdrawals withdrawn withdrawing ∧ Criterion.EndsWithout withdrawing ∧
      schema.Returns withdrawals none .root (.new .strict) none ∧
      (Step.elements schema).Calls (.array [.null]) .root (.new .lenient) schema (some .null)
        (Path.root.index 0) (.new .lenient) ∧
      ¬ schema.Returns withdrawals (some .null) (Path.root.index 0) (.new .lenient) none ∧
      (Step.elements schema).run withdrawals (membersAt withdrawals 2) (.ofKind .array)
          (.array [.null]) .root (.new .lenient) =
        (Step.elements schema).run withdrawals ((membersAt withdrawals 2).filling (.bool true))
          (.ofKind .array) (.array [.null]) .root (.new .lenient) ∧
      ((membersAt withdrawals 2).positions .root (.new .strict) 0 pair [.string "a"]).result? =
        some [.string "a", .null] ∧
      ∃ outcome, (schema.validateAt withdrawals 2 none (Path.root.index 1) (.new .strict)).result? =
          some outcome ∧ some Value.null = some (outcome.getD .null) := by
  intro schema pair
  have stands : schema.ResolvesTo withdrawals withdrawn := .deferred rfl (.built withdrawn)
  have made : schema.MadeBy withdrawals withdrawn withdrawing :=
    ⟨stands, .ofKind .string, .plain .string rfl, rfl⟩
  have ends : Criterion.EndsWithout withdrawing :=
    ⟨[.default (.string "none")], [.nullable true], rfl, by simp [Criterion.givesDefault]⟩
  have calls : (Step.elements schema).Calls (.array [.null]) .root (.new .lenient) schema
      (some .null) (Path.root.index 0) (.new .lenient) := .element rfl
  have filled : ((membersAt withdrawals 2).positions .root (.new .strict) 0 pair
      [.string "a"]).result? = some [.string "a", .null] := rfl
  have alike := (membersAt withdrawals 2).alikeWhereDefined_filling (.bool true)
  obtain ⟨left, called, taken, _, padded⟩ := validateAt_undefined withdrawals
  obtain ⟨outcome, ended, stands, _⟩ :=
    padded 2 pair _ _ .root (.new .strict) filled 1 schema withdrawn withdrawing rfl made
  exact ⟨made, ends, (left schema withdrawn withdrawing made none .root (.new .strict)).mpr
    ⟨rfl, nofun, ends⟩, calls, called _ _ _ _ _ _ _ _ calls nofun nofun,
    taken 2 _ alike _ _ _ _ _ nofun nofun, filled, outcome, ended, stands⟩

end Assay
