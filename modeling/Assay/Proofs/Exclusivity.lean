import Assay.Proofs.Checks
import Assay.Proofs.Coercion
import Assay.Proofs.Doubles
import Assay.Proofs.Omission

/-!
# Schemas that allow their default only

A schema that is held to its default compares the value that its other steps left with the default as
it was given. So what matters is whether these steps leave the default equal to itself. Steps that only
check do, as long as the default equals itself, which a value does that contains no NaN
(`Value.beq_self`). Of steps that rebuild this has to be asked. Where the default comes out equal, the
schema that allows nothing else accepts it as the schema without that restriction does; and it takes
undefined input for the default, unless input is required (`Schema.validateAt_only`).
-/
namespace Assay

/-! ## Values that equal themselves -/

namespace Value

mutual

/-- No number in the value is NaN. -/
def LacksNaN : Value → Prop
  | number value => value ≠ Float.nan
  | array items => ItemsLackNaN items
  | object fields => FieldsLackNaN fields
  | inst _ fields => FieldsLackNaN fields
  | _ => True

/-- No number in the items is NaN. -/
def ItemsLackNaN : List Value → Prop
  | [] => True
  | item :: rest => LacksNaN item ∧ ItemsLackNaN rest

/-- No number in the fields is NaN. -/
def FieldsLackNaN : List (String × Value) → Prop
  | [] => True
  | (_, value) :: rest => LacksNaN value ∧ FieldsLackNaN rest

end

mutual

/-- A value without NaN equals itself. -/
theorem same_self {value : Value} (free : value.LacksNaN) : same value value = true := by
  match value with
  | number _ => exact Float.beq_self_iff.mpr free
  | array _ => exact sameItems_self free
  | object _ => exact sameFields_self free
  | inst _ _ => exact Bool.and_eq_true_iff.mpr ⟨beq_self_eq_true _, sameFields_self free⟩
  | null => rfl
  | bool _ | string _ | date _ => exact beq_self_eq_true _
  | function value => exact beq_self_eq_true value.id

/-- Items without NaN equal themselves. -/
theorem sameItems_self {items : List Value} (free : ItemsLackNaN items) :
    sameItems items items = true := by
  match items with
  | [] => rfl
  | _ :: _ => exact Bool.and_eq_true_iff.mpr ⟨same_self free.1, sameItems_self free.2⟩

/-- Fields without NaN equal themselves. -/
theorem sameFields_self {fields : List (String × Value)} (free : FieldsLackNaN fields) :
    sameFields fields fields = true := by
  match fields with
  | [] => rfl
  | (_, _) :: _ =>
    exact Bool.and_eq_true_iff.mpr ⟨Bool.and_eq_true_iff.mpr ⟨beq_self_eq_true _, same_self free.1⟩,
      sameFields_self free.2⟩

end

/-- A value equals itself unless it contains NaN. -/
theorem beq_self {value : Value} (free : value.LacksNaN) : (value == value) = true :=
  same_self free

end Value

/-! ## Steps that rebuild -/

variable {κ : Type} {host : Host κ} {members : Members κ} {path : Path} {scope : Scope}

namespace Kind

/-- Whether schemas of a kind offer steps that rebuild values. -/
def mayRebuild : Kind → Bool
  | array | object | shape | tuple | union => true
  | _ => false

/-- A kind with a use for a step that can rebuild is one whose schemas offer such steps. -/
theorem mayRebuild_of_suits {kind : Kind} {step : Step κ} (own : step.suits kind = true)
    (role : step.role = .rebuild) : kind.mayRebuild = true := by
  cases step with
  | check => cases role
  | keys => cases role
  | _ =>
    obtain rfl := eq_of_beq own
    rfl

end Kind

namespace Body

variable {body held : Body κ} {allowed : Value}

/-- Being held to the default is a last check, against a default that is fixed, is not null and passes
the type check. -/
theorem apply_only (applied : body.apply .only = .ok held) :
    ∃ allowed, body.settings.default = .fixed allowed ∧ allowed ≠ .null ∧
      body.settings.kind.check allowed = true ∧
      held = ⟨body.settings, body.steps ++ [.check (.only allowed)]⟩ := by
  rw [apply, Criterion.misuse?] at applied
  cases own : body.settings.ownDefault? with
  | none =>
    rw [own] at applied
    cases applied
  | some allowed =>
    rw [own] at applied
    obtain rfl := Except.ok.inj applied
    obtain ⟨stored, proper⟩ := Option.filter_eq_some_iff.mp own
    rw [Bool.and_eq_true, Bool.not_eq_true', Value.isNull_eq_false_iff] at proper
    have fixed : body.settings.default = .fixed allowed := by
      cases given : body.settings.default with
      | fixed value =>
        rw [given] at stored
        rw [Option.some.inj stored]
      | _ =>
        rw [given] at stored
        cases stored
    refine ⟨allowed, fixed, proper.1, proper.2, ?_⟩
    rw [refine, Criterion.step?, own]
    rfl

/-- Strictly, the check against a value lets through what equals it. -/
theorem takeSteps_only {settings : Settings κ} {steps : List (Step κ)} {value left : Value}
    (strict : scope.isStrict = true)
    (taken : (takeSteps host members settings path scope steps value).result? = some left) :
    (takeSteps host members settings path scope (steps ++ [.check (.only allowed)]) value).result? =
      if left == allowed then some left else none := by
  have due : (Step.check (.only allowed) : Step κ).isSkipped settings left = false := by
    simp [Step.isSkipped, Step.isAboutContent, Check.isAboutContent]
  rw [takeSteps_append, taken, Option.bind_some, takeSteps, strict, due, Step.run, Check.run,
    Check.objection?]
  cases left == allowed <;> rfl

/-- What the steps leave of the default equals it if none of them rebuilds values. Where one does, the
result is what they left. -/
theorem takeSteps_default {left : Value} (built : body.Built) (free : allowed.LacksNaN)
    (taken : (takeSteps host members body.settings path scope body.steps allowed).result? =
      some left)
    (kept : body.settings.kind.mayRebuild = true → (∃ step ∈ body.steps, step.role = .rebuild) →
      (body.settings.kind.cast left == allowed) = true) :
    (left == allowed) = true := by
  by_cases rebuilds : ∃ step ∈ body.steps, step.role = .rebuild
  · obtain ⟨step, listed, role⟩ := rebuilds
    have own := built.suits step listed
    -- Kinds whose schemas rebuild values coerce nothing at the end.
    rw [← Kind.cast_of_rebuild own role left]
    exact kept (Kind.mayRebuild_of_suits own role) ⟨step, listed, role⟩
  · have checks : ∀ step ∈ body.steps, step.role = .check := by
      intro step listed
      cases role : step.role with
      | check => rfl
      | rebuild => exact absurd ⟨step, listed, role⟩ rebuilds
    obtain rfl := takeSteps_unchanged checks taken
    exact Value.beq_self free

/-- A body that is held to its default accepts it strictly with the result that it has without, if the
steps do not rebuild the default to anything else. -/
theorem validate_only {outcome : Option Value} (built : body.Built)
    (fixed : body.settings.default = .fixed allowed) (free : allowed.LacksNaN)
    (applied : body.apply .only = .ok held) (strict : scope.isStrict = true)
    (accepted : (body.validate host members (some allowed) path scope).result? = some outcome)
    (kept : body.settings.kind.mayRebuild = true → (∃ step ∈ body.steps, step.role = .rebuild) →
      ∀ result, outcome = some result → (result == allowed) = true) :
    (held.validate host members (some allowed) path scope).result? = some outcome := by
  obtain ⟨_, same, defined, _, rfl⟩ := apply_only applied
  obtain rfl := Default.fixed.inj (fixed.symm.trans same)
  rw [result?_validate defined] at accepted ⊢
  split at accepted
  · cases accepted
  · rename_i allowance
    obtain ⟨left, taken, rfl⟩ := Option.map_eq_some_iff.mp accepted
    have equal := takeSteps_default built free taken fun may rebuilds => kept may rebuilds _ rfl
    rw [if_neg allowance, takeSteps_only strict taken, equal, if_pos rfl]
    rfl

end Body

/-- A schema that is held to its fixed default, as its last criterion, accepts that default strictly
with the result that the schema without this criterion has, if this result equals the default or no
step rebuilds values. Undefined input is taken for the default, unless input is required. -/
theorem Schema.validateAt_only (host : Host κ) (depth : Nat) (body held : Body κ)
    (built : body.Built) (allowed : Value) (fixed : body.settings.default = .fixed allowed)
    (free : allowed.LacksNaN) (applied : body.apply .only = .ok held) (path : Path) (scope : Scope)
    (strict : scope.mode = .strict) (outcome : Option Value)
    (accepted : ((Schema.built body).validateAt host depth (some allowed) path scope).result? =
      some outcome) :
    let run := fun input => (Schema.built held).validateAt host depth input path scope
    ((body.settings.kind.mayRebuild = true → (∃ step ∈ body.steps, step.role = .rebuild) →
        ∀ result, outcome = some result → (result == allowed) = true) →
      (run (some allowed)).result? = some outcome) ∧
    (body.settings.required = false → (run none).result? = (run (some allowed)).result?) ∧
    (body.settings.required = true → (run none).fault? = some (.located path .missing)) := by
  intro run
  cases depth with
  | zero => cases accepted
  | succ depth =>
    have strictly := Scope.isStrict_of_mode strict
    refine ⟨Body.validate_only built fixed free applied strictly accepted, fun optional => ?_,
      fun required => ?_⟩
    · obtain ⟨_, same, defined, _, rfl⟩ := Body.apply_only applied
      obtain rfl := Default.fixed.inj (fixed.symm.trans same)
      have usable : body.settings.never = false := by
        cases never : body.settings.never with
        | false => rfl
        | true =>
          rw [Schema.validateAt, Body.result?_validate defined, strictly, never] at accepted
          cases accepted
      have supplies : Body.Supplies ⟨body.settings, body.steps ++ [.check (.only allowed)]⟩ allowed :=
        ⟨optional, usable, fixed⟩
      exact Run.result?_congr supplies.validate
    · obtain ⟨_, _, _, _, rfl⟩ := Body.apply_only applied
      have refused : Body.receive host body.settings none path scope =
          .reject (.located path .missing) := by
        rw [Body.receive, required, strictly]
        rfl
      change (Body.validate _ _ _ _ _ _).fault? = _
      rw [Body.validate, refused]
      rfl

/-- A badge: an object with a name, which is empty unless it is given. -/
def badge : Body Unit := .shape [("name", .built (.ofKind .string))]

/-- A badge that is held to a default with all its fields is that default or left out. -/
theorem Schema.validateAt_only_badge :
    let first := Value.object [("name", .string "first")]
    let body := badge.refine (.default first)
    let held := body.refine .only
    body.Built ∧ body.settings.default = .fixed first ∧ first.LacksNaN ∧
      body.apply .only = .ok held ∧ (Scope.new .strict).mode = .strict ∧
      ((built body).validateAt events 2 (some first) .root (.new .strict)).result? =
        some (some first) ∧
      (first == first) = true ∧
      ((built held).validateAt events 2 (some first) .root (.new .strict)).result? =
        some (some first) ∧
      ((built held).validateAt events 2 none .root (.new .strict)).result? = some (some first) := by
  intro first body held
  have composed : body.Built := by
    refine ⟨badge, [.default first], .shape _, fun criterion listed => ?_, rfl⟩
    obtain rfl := List.mem_singleton.mp listed
    rfl
  have free : first.LacksNaN := ⟨trivial, trivial⟩
  have accepted : ((built body).validateAt events 2 (some first) .root (.new .strict)).result? =
      some (some first) := rfl
  have kept : ∀ result, some first = some result → (result == first) = true := by
    intro result same
    obtain rfl := Option.some.inj same
    rfl
  obtain ⟨accepts, missing, _⟩ := validateAt_only events 2 body held composed first rfl free rfl .root
    (.new .strict) rfl (some first) accepted
  have given := accepts fun _ _ => kept
  exact ⟨composed, rfl, free, rfl, rfl, accepted, rfl, given, (missing rfl).trans given⟩

/-- A mode that has a default, but must be given. -/
def givenMode : Body Unit :=
  ((Body.ofKind .string).refine (.default (.string "fast"))).refine (.required true)

/-- Not every schema that is held to a default which it accepts accepts undefined input: that a value
must be given is not met by the default. -/
theorem Schema.validateAt_only_refused :
    ∃ held, givenMode.Built ∧ givenMode.settings.default = .fixed (.string "fast") ∧
      (Value.string "fast").LacksNaN ∧ givenMode.apply .only = .ok held ∧
      ((built givenMode).validateAt events 1 (some (.string "fast")) .root
        (.new .strict)).result? = some (some (.string "fast")) ∧
      ((built held).validateAt events 1 (some (.string "fast")) .root
        (.new .strict)).result? = some (some (.string "fast")) ∧
      ((built held).validateAt events 1 none .root (.new .strict)).fault? =
        some (.located .root .missing) := by
  refine ⟨givenMode.refine .only, ?_, rfl, trivial, rfl, rfl, rfl, rfl⟩
  refine ⟨.ofKind .string, [.default (.string "fast"), .required true], .plain .string rfl,
    fun criterion listed => ?_, rfl⟩
  simp only [List.mem_cons, List.not_mem_nil, or_false] at listed
  rcases listed with rfl | rfl <;> rfl

end Assay
