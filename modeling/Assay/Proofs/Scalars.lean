import Assay.Proofs.Checks

/-!
# What scalar schemas accept

A scalar schema is built from its kind by rules of that kind and by criteria about null, undefined
input and the default, in any order (`Criterion.isScalar`). The rules become its steps in the order
in which they were applied, whatever stands between them (`Body.refineAll_scalar`). A rule on the content
of texts or numbers does not bind the default of input that is not required, as the last of the
criteria leave these (`Criterion.Admits`). So a value is accepted when it passes the type check and
every criterion admits it, and is refused with the reason of the first one that does not
(`Schema.validateAt_scalar`).
-/
namespace Assay

/-! ## What the rules say -/

/-- What a rule on texts says of a text. -/
def TextRule.Allows (rule : TextRule) (text : String) : Prop :=
  match rule with
  | contains token => token.toList <:+: text.toList
  | matching _ pattern _ => pattern.occursIn text = true
  | inFormat format => format.pattern.occursIn text = true
  | lowerCase => isLowerCased text = true
  | upperCase => isUpperCased text = true
  | notEmpty => text ≠ ""
  | oneOf choices => text ∈ choices
  | size count => text.length = count

/-- What a rule on numbers says of a number. -/
def NumberRule.Allows (rule : NumberRule) (number : Float) : Prop :=
  match rule with
  | between least greatest => least < number ∧ number < greatest
  | betweenInclusive least greatest => least ≤ number ∧ number ≤ greatest
  | above bound => bound < number
  | atLeast bound => bound ≤ number
  | below bound => number < bound
  | atMost bound => number ≤ bound
  | whole => ∃ integer, wholeNumber? number = some integer
  | fractional => ∀ integer, wholeNumber? number ≠ some integer
  | positive => 0 < number
  | negative => number < 0
  | oneOf choices => ∃ choice ∈ choices, (choice == number) = true

/-- The first instant comes before the second. -/
def Instant.Before (first second : Instant) : Prop :=
  first.seconds < second.seconds ∨
    first.seconds = second.seconds ∧ first.nanoseconds < second.nanoseconds

/-- What a rule on dates says of an instant. -/
def DateRule.Allows (rule : DateRule) (date : Instant) : Prop :=
  match rule with
  | before bound => date.Before bound
  | after bound => bound.Before date
  | between start finish => start.Before date ∧ date.Before finish

/-- Characters are part of others when they occur among them in a row. -/
theorem TextRule.isPart_iff (token text : List Char) :
    isPart token text = true ↔ token <:+: text := by
  induction text with
  | nil => rw [isPart, List.isEmpty_iff, List.infix_nil]
  | cons char rest ih =>
    rw [isPart, Bool.or_eq_true, List.isPrefixOf_iff_prefix, ih, List.infix_cons_iff]

/-- A text is allowed when it is as the rule says. -/
theorem TextRule.holds_iff (rule : TextRule) (text : String) :
    rule.holds text = true ↔ rule.Allows text := by
  cases rule with
  | contains token => exact isPart_iff token.toList text.toList
  | notEmpty => simp [holds, Allows]
  | oneOf choices => exact List.contains_iff_mem
  | size count => exact beq_iff_eq
  | _ => rfl

/-- A number is allowed when it is as the rule says. -/
theorem NumberRule.holds_iff (rule : NumberRule) (number : Float) :
    rule.holds number = true ↔ rule.Allows number := by
  cases rule with
  | whole => exact Option.isSome_iff_exists
  | fractional => exact Option.isNone_iff_eq_none.trans Option.eq_none_iff_forall_ne_some
  | oneOf choices => exact List.any_eq_true
  | _ => simp [holds, Allows]

/-- Instants are compared as their seconds and then their nanoseconds are. -/
theorem Instant.isBefore_iff (first second : Instant) :
    first.isBefore second = true ↔ first.Before second := by
  simp [isBefore, Before]

/-- A date is allowed when it is as the rule says. -/
theorem DateRule.holds_iff (rule : DateRule) (date : Instant) :
    rule.holds date = true ↔ rule.Allows date := by
  cases rule <;> simp [holds, Allows, Instant.isBefore_iff]

/-! ## What the criteria ask -/

variable {κ : Type} {host : Host κ} {members : Members κ} {settings : Settings κ} {path : Path}
  {scope : Scope} {kind : Kind} {value : Value}

/-- The value equals the fixed default, and input is not required. -/
def Settings.Excuses (settings : Settings κ) (value : Value) : Prop :=
  settings.required = false ∧
    ∃ default, settings.default = .fixed default ∧ (default == value) = true

/-- Settings excuse the values that a step about content is left out for. -/
theorem Settings.excuses_iff : settings.Excuses value ↔
    (!settings.required && settings.default.isValue value) = true := by
  cases held : settings.default <;> simp [Excuses, Default.isValue, held]

namespace Criterion

/-- Whether a criterion is a rule of a scalar kind, or is about null, undefined input or the
default. -/
def isScalar (kind : Kind) : Criterion κ → Bool
  | text _ => kind == .string
  | number _ => kind == .number
  | boolean _ => kind == .boolean
  | date _ => kind == .date
  | nullable _ | required _ | default _ => true
  | _ => false

/-- What a scalar criterion asks of a value. -/
def Asks (value : Value) : Criterion κ → Prop
  | text rule => ∃ text, value = .string text ∧ rule.Allows text
  | number rule => ∃ number, value = .number number ∧ rule.Allows number
  | boolean expected => value = .bool expected
  | date rule => ∃ instant, value.toInstant? = some instant ∧ rule.Allows instant
  | _ => True

/-- Whether the default of input that is not required escapes a criterion: it escapes the rules on
numbers and on texts, but for the one against the empty text. -/
def isEscapable : Criterion κ → Bool
  | text .notEmpty => false
  | text _ | number _ => true
  | _ => false

/-- A criterion lets a value pass: the value is as asked, or escapes. -/
def Admits (settings : Settings κ) (value : Value) (criterion : Criterion κ) : Prop :=
  criterion.Asks value ∨ criterion.isEscapable = true ∧ settings.Excuses value

/-- The reason that a scalar criterion gives. -/
def reason? : Criterion κ → Option Reason
  | text rule => some (.text rule)
  | number rule => some (.number rule)
  | boolean expected => some (.boolean expected)
  | date rule => some (.date rule)
  | _ => none

/-- The reason is that of the first of the criteria that does not admit the value. -/
def FirstReason (settings : Settings κ) (value : Value) (criteria : List (Criterion κ))
    (reason : Reason) : Prop :=
  ∃ before criterion after, criteria = before ++ criterion :: after ∧
    (∀ earlier ∈ before, earlier.Admits settings value) ∧ ¬ criterion.Admits settings value ∧
    criterion.reason? = some reason

/-- The check that a scalar criterion registers. -/
def check? : Criterion κ → Option (Check κ)
  | text rule => some (.text rule)
  | number rule => some (.number rule)
  | boolean expected => some (.boolean expected)
  | date rule => some (.date rule)
  | _ => none

/-- The steps that scalar criteria register, in order. -/
def checks (criteria : List (Criterion κ)) : List (Step κ) :=
  (criteria.filterMap check?).map Step.check

/-- A criterion without a check adds no step. -/
theorem checks_cons_none {criterion : Criterion κ} (unchecked : criterion.check? = none)
    (rest : List (Criterion κ)) : checks (criterion :: rest) = checks rest := by
  simp [checks, unchecked]

/-- The check of a criterion comes before those of the rest. -/
theorem checks_cons_some {criterion : Criterion κ} {condition : Check κ}
    (registered : criterion.check? = some condition) (rest : List (Criterion κ)) :
    checks (criterion :: rest) = .check condition :: checks rest := by
  simp [checks, registered]

/-- The step that a scalar criterion registers does not depend on the settings. -/
theorem step?_scalar {criterion : Criterion κ} (own : criterion.isScalar kind = true)
    (settings : Settings κ) : criterion.step? settings = criterion.check?.map Step.check := by
  cases criterion <;> first | rfl | cases own

/-- A criterion that registers no check asks nothing. -/
theorem admits_of_check?_none {criterion : Criterion κ} (unchecked : criterion.check? = none) :
    criterion.Admits settings value := by
  cases criterion <;> first | exact .inl trivial | cases unchecked

/-- The first reason after a criterion that admits the value is the first reason with it. -/
theorem FirstReason.cons {criterion : Criterion κ} {criteria : List (Criterion κ)} {reason : Reason}
    (admitted : criterion.Admits settings value)
    (first : FirstReason settings value criteria reason) :
    FirstReason settings value (criterion :: criteria) reason := by
  obtain ⟨before, refusing, after, rfl, each, rest⟩ := first
  exact ⟨criterion :: before, refusing, after, rfl,
    List.forall_mem_cons.mpr ⟨admitted, each⟩, rest⟩

/-- Where there is a first reason, some criterion does not admit the value. -/
theorem FirstReason.not_all {criteria : List (Criterion κ)} {reason : Reason}
    (first : FirstReason settings value criteria reason) :
    ¬ ∀ criterion ∈ criteria, criterion.Admits settings value := by
  obtain ⟨before, refusing, after, rfl, _, refused, _⟩ := first
  intro all
  exact refused (all refusing (List.mem_append_right _ List.mem_cons_self))

/-- The check of a criterion is left out for what escapes the criterion. -/
theorem isSkipped_iff {criterion : Criterion κ} {condition : Check κ}
    (registered : criterion.check? = some condition) :
    (Step.check condition).isSkipped settings value = true ↔
      criterion.isEscapable = true ∧ settings.Excuses value := by
  have content : (Step.check condition).isAboutContent = criterion.isEscapable := by
    cases criterion with
    | text rule =>
      obtain rfl := Option.some.inj registered
      cases rule <;> rfl
    | number | boolean | date =>
      obtain rfl := Option.some.inj registered
      rfl
    | _ => cases registered
  rw [Step.isSkipped, content, Bool.and_assoc, Bool.and_eq_true, Settings.excuses_iff]

/-- Of values that pass the type check, the check of a criterion of the kind objects to those that
are not as asked. -/
theorem objection?_eq_none_iff {criterion : Criterion κ} {condition : Check κ}
    (own : criterion.isScalar kind = true) (checked : kind.check value = true)
    (registered : criterion.check? = some condition) :
    condition.objection? host value path scope = none ↔ criterion.Asks value := by
  cases criterion with
  | text rule =>
    obtain rfl : kind = .string := beq_iff_eq.mp own
    obtain rfl := Option.some.inj registered
    cases value with
    | string text => simp [Check.objection?, Asks, Value.string?, rule.holds_iff]
    | _ => cases checked
  | number rule =>
    obtain rfl : kind = .number := beq_iff_eq.mp own
    obtain rfl := Option.some.inj registered
    cases value with
    | number number => simp [Check.objection?, Asks, Value.number?, rule.holds_iff]
    | _ => cases checked
  | boolean expected =>
    obtain rfl : kind = .boolean := beq_iff_eq.mp own
    obtain rfl := Option.some.inj registered
    cases value with
    | bool truth => simp [Check.objection?, Asks, Value.bool?]
    | _ => cases checked
  | date rule =>
    obtain rfl : kind = .date := beq_iff_eq.mp own
    obtain rfl := Option.some.inj registered
    obtain ⟨instant, denoted⟩ := Option.isSome_iff_exists.mp checked
    simp [Check.objection?, Asks, denoted, rule.holds_iff]
  | _ => cases registered

/-- The check of a criterion objects for the reason of the criterion. -/
theorem reason?_of_objection {criterion : Criterion κ} {condition : Check κ} {reason : Reason}
    (registered : criterion.check? = some condition)
    (objected : condition.objection? host value path scope = some reason) :
    criterion.reason? = some reason := by
  cases criterion with
  | text | number | boolean | date =>
    obtain rfl := Option.some.inj registered
    exact congrArg some (Check.reasonUnless_eq_some.mp objected).2
  | _ => cases registered

/-- Strictly, a criterion of the kind lets values through that pass the type check exactly when its
check does. -/
theorem admits_iff {criterion : Criterion κ} {condition : Check κ}
    (own : criterion.isScalar kind = true) (checked : kind.check value = true)
    (registered : criterion.check? = some condition) (strict : scope.isStrict = true) :
    (Step.check condition).admits host members settings path scope value = true ↔
      criterion.Admits settings value := by
  have ran : ((Step.check condition).run host members settings value path scope).result?.isSome =
      true ↔ criterion.Asks value := by
    rw [← objection?_eq_none_iff own checked registered]
    cases objected : condition.objection? host value path scope <;>
      simp [Step.run, Check.run, objected, Except.toOption]
  rw [Step.admits, strict, Bool.not_true, Bool.false_and, Bool.false_or, Bool.or_eq_true, ran,
    isSkipped_iff registered]
  exact or_comm

end Criterion

namespace Body

/-- Scalar criteria become checks in their order, and forbid no input. -/
theorem refineAll_scalar {criteria : List (Criterion κ)}
    (own : ∀ criterion ∈ criteria, criterion.isScalar kind = true) (body : Body κ) :
    (criteria.foldl Body.refine body).steps =
        body.steps ++ Criterion.checks criteria ∧
      (criteria.foldl Body.refine body).settings.never = body.settings.never := by
  refine ⟨refineAll_checks (fun criterion listed => Criterion.step?_scalar (own criterion listed)) body,
    ?_⟩
  induction criteria generalizing body with
  | nil => rfl
  | cons criterion rest ih =>
    obtain ⟨here, later⟩ := List.forall_mem_cons.mp own
    rw [List.foldl_cons, ih later]
    cases criterion <;> first | rfl | cases here

/-- A check that binds a value and objects to it ends the steps with its reason. -/
theorem takeSteps_of_objection {condition : Check κ} {reason : Reason}
    (strict : scope.isStrict = true)
    (binds : ¬ (Step.check condition).isSkipped settings value = true)
    (objected : condition.objection? host value path scope = some reason) (rest : List (Step κ)) :
    (takeSteps host members settings path scope (.check condition :: rest) value).verdict =
      .rejected (.located path reason) := by
  simp only [takeSteps, strict, binds, Step.run, Check.run, objected, Bool.not_true,
    Bool.false_and, Bool.false_or, Bool.false_eq_true, if_false]
  rfl

/-- Taken strictly with a value that passes the type check, the checks of scalar criteria leave it
alone if every criterion admits it, and else refuse it for the reason of the first that does not. -/
theorem takeSteps_scalar_criteria {criteria : List (Criterion κ)}
    (own : ∀ criterion ∈ criteria, criterion.isScalar kind = true)
    (checked : kind.check value = true) (strict : scope.isStrict = true) :
    (∀ criterion ∈ criteria, criterion.Admits settings value) ∧
      (takeSteps host members settings path scope (Criterion.checks criteria) value).verdict =
        .accepted value ∨
    ∃ reason, Criterion.FirstReason settings value criteria reason ∧
      (takeSteps host members settings path scope (Criterion.checks criteria) value).verdict =
        .rejected (.located path reason) := by
  induction criteria with
  | nil => exact .inl ⟨nofun, rfl⟩
  | cons criterion rest ih =>
    obtain ⟨here, later⟩ := List.forall_mem_cons.mp own
    by_cases admitted : criterion.Admits settings value
    · -- The check of the criterion, if it has one, leaves the verdict to the rest.
      have passed : (takeSteps host members settings path scope
          (Criterion.checks (criterion :: rest)) value).verdict =
            (takeSteps host members settings path scope (Criterion.checks rest) value).verdict := by
        cases registered : criterion.check? with
        | none => rw [Criterion.checks_cons_none registered]
        | some condition =>
          rw [Criterion.checks_cons_some registered]
          apply takeSteps_of_admits rfl
          exact (Criterion.admits_iff here checked registered strict).mpr admitted
      rw [passed]
      rcases ih later with ⟨all, accepted⟩ | ⟨reason, first, rejected⟩
      · exact .inl ⟨List.forall_mem_cons.mpr ⟨admitted, all⟩, accepted⟩
      · exact .inr ⟨reason, first.cons admitted, rejected⟩
    · cases registered : criterion.check? with
      | none => exact absurd (Criterion.admits_of_check?_none registered) admitted
      | some condition =>
        obtain ⟨unasked, bound⟩ := not_or.mp admitted
        have binds : ¬ (Step.check condition).isSkipped settings value = true := by
          rwa [Criterion.isSkipped_iff registered]
        cases objected : condition.objection? host value path scope with
        | none =>
          have asked := (Criterion.objection?_eq_none_iff here checked registered).mp objected
          exact absurd asked unasked
        | some reason =>
          have stated := Criterion.reason?_of_objection registered objected
          refine .inr ⟨reason, ⟨[], criterion, rest, rfl, nofun, admitted, stated⟩, ?_⟩
          rw [Criterion.checks_cons_some registered]
          exact takeSteps_of_objection strict binds objected _

/-- A scalar schema refuses strictly what fails the type check of its kind. -/
theorem validate_scalar_unchecked {criteria : List (Criterion κ)} {body : Body κ}
    (own : ∀ criterion ∈ criteria, criterion.isScalar kind = true)
    (applied : (Body.ofKind kind).applyAll criteria = .ok body) (defined : value ≠ .null)
    (strict : scope.isStrict = true) (unchecked : kind.check value = false) :
    (body.validate host members (some value) path scope).verdict =
      .rejected (.located path (.wrongKind kind)) := by
  have never := (refineAll_scalar own (Body.ofKind kind)).2
  rw [← applyAll_ok applied] at never
  have same : body.settings.kind = kind := applyAll_kind applied
  rw [validate_verdict defined, never, process, same, strict, unchecked]
  rfl

/-- A scalar schema accepts strictly a value that passes the type check and that every criterion
admits, and refuses any other that passes it for the reason of the first criterion that does not. -/
theorem validate_scalar_checked {criteria : List (Criterion κ)} {body : Body κ}
    (own : ∀ criterion ∈ criteria, criterion.isScalar kind = true)
    (applied : (Body.ofKind kind).applyAll criteria = .ok body) (defined : value ≠ .null)
    (strict : scope.isStrict = true) (checked : kind.check value = true) :
    (∀ criterion ∈ criteria, criterion.Admits body.settings value) ∧
      (body.validate host members (some value) path scope).verdict =
        .accepted (some (kind.cast value)) ∨
    ∃ reason, Criterion.FirstReason body.settings value criteria reason ∧
      (body.validate host members (some value) path scope).verdict =
        .rejected (.located path reason) := by
  obtain ⟨steps, never⟩ := refineAll_scalar own (Body.ofKind kind)
  rw [← applyAll_ok applied] at steps never
  have same : body.settings.kind = kind := applyAll_kind applied
  have stepped : (body.validate host members (some value) path scope).verdict =
      (takeSteps host members body.settings path scope (Criterion.checks criteria) value >>=
        fun final => pure (some (kind.cast final))).verdict := by
    rw [validate_verdict defined, never, process, same, strict, checked, steps]
    exact Run.verdict_bind_assoc _ _ _
  rw [stepped]
  rcases takeSteps_scalar_criteria own checked strict with
    ⟨all, accepted⟩ | ⟨reason, first, rejected⟩
  · have left : (takeSteps host members body.settings path scope (Criterion.checks criteria)
        value).result? = some value := by
      rw [Run.result?, accepted]
    exact .inl ⟨all, Run.verdict_bind_of_result left _⟩
  · exact .inr ⟨reason, first, Run.verdict_bind_rejected rejected _⟩

end Body

/-- Coercion leaves alone what passes the type check, if no date is asked for. -/
theorem Kind.cast_of_check (checked : kind.check value = true) (undated : kind ≠ .date) :
    kind.cast value = value := by
  cases kind with
  | date => exact absurd rfl undated
  | string =>
    cases value with
    | string text => rfl
    | _ => cases checked
  | number =>
    cases value with
    | number number => rfl
    | _ => cases checked
  | boolean =>
    cases value with
    | bool truth => rfl
    | _ => cases checked
  | _ => rfl

/-- Coercion to a date makes one of what passes the type check. -/
theorem Kind.cast_date (checked : Kind.date.check value = true) :
    ∃ instant, value.toInstant? = some instant ∧ Kind.date.cast value = .date instant := by
  obtain ⟨instant, denoted⟩ := Option.isSome_iff_exists.mp checked
  refine ⟨instant, denoted, ?_⟩
  cases value <;> simp_all [Kind.cast]

/-- A scalar schema accepts strictly just what passes the type check and what every criterion
admits, and the result is the value, or the date that it denotes; what passes the type check and is
not accepted is refused for the reason of the first criterion that does not admit it. -/
theorem Schema.validateAt_scalar (host : Host κ) (depth : Nat) (kind : Kind)
    (criteria : List (Criterion κ)) (body : Body κ)
    (own : ∀ criterion ∈ criteria, criterion.isScalar kind = true)
    (applied : (Body.ofKind kind).applyAll criteria = .ok body) (value : Value)
    (defined : value ≠ .null) (path : Path) (scope : Scope) (strict : scope.mode = .strict) :
    let run := (built body).validateAt host (depth + 1) (some value) path scope
    ((∃ outcome, run.result? = some outcome) ↔
      kind.check value = true ∧ ∀ criterion ∈ criteria, criterion.Admits body.settings value) ∧
    (∀ outcome, run.result? = some outcome →
      (kind ≠ .date → outcome = some value) ∧
      (kind = .date → ∃ instant, value.toInstant? = some instant ∧
        outcome = some (.date instant))) ∧
    (kind.check value = true → (¬ ∀ criterion ∈ criteria, criterion.Admits body.settings value) →
      ∃ reason, Criterion.FirstReason body.settings value criteria reason ∧
        run.fault? = some (.located path reason)) ∧
    (kind.check value = false → run.fault? = some (.located path (.wrongKind kind))) := by
  intro run
  have strictly := Scope.isStrict_of_mode strict
  cases checked : kind.check value with
  | false =>
    have refused : run.verdict = .rejected (.located path (.wrongKind kind)) :=
      Body.validate_scalar_unchecked own applied defined strictly checked
    simp [Run.result?, Run.fault?, refused]
  | true =>
    have settled : (∀ criterion ∈ criteria, criterion.Admits body.settings value) ∧
        run.verdict = .accepted (some (kind.cast value)) ∨
      ∃ reason, Criterion.FirstReason body.settings value criteria reason ∧
        run.verdict = .rejected (.located path reason) :=
      Body.validate_scalar_checked own applied defined strictly checked
    rcases settled with ⟨all, accepted⟩ | ⟨reason, first, rejected⟩
    · have reached : run.result? = some (some (kind.cast value)) := by rw [Run.result?, accepted]
      refine ⟨iff_of_true ⟨_, reached⟩ ⟨rfl, all⟩, ?_, ?_, ?_⟩
      · intro outcome ended
        obtain rfl := Option.some.inj (reached.symm.trans ended)
        constructor
        · intro undated
          rw [Kind.cast_of_check checked undated]
        · rintro rfl
          obtain ⟨instant, denoted, same⟩ := Kind.cast_date checked
          exact ⟨instant, denoted, congrArg some same⟩
      · intro _ refused
        exact absurd all refused
      · intro unchecked
        cases unchecked
    · have stopped : ¬ ∃ outcome, run.result? = some outcome := by simp [Run.result?, rejected]
      have failed : run.fault? = some (.located path reason) := by rw [Run.fault?, rejected]
      refine ⟨iff_of_false stopped fun held => first.not_all held.2, ?_, ?_, ?_⟩
      · intro outcome ended
        exact absurd ⟨outcome, ended⟩ stopped
      · intro _ _
        exact ⟨reason, first, failed⟩
      · intro unchecked
        cases unchecked

/-- A number between two bounds, and whole, which is twenty unless it is given. -/
def scoreCriteria : List (Criterion Unit) :=
  [.number (.between 0 10), .default (.number 20), .required false, .number .whole]

/-- A score as its criteria make it. -/
def score : Body Unit := scoreCriteria.foldl Body.refine (.ofKind .number)

/-- A score is twenty only because that is the default; fifteen is refused for the bounds, and a
text for its kind. -/
theorem Schema.validateAt_scalar_score :
    (∀ criterion ∈ scoreCriteria, criterion.isScalar .number = true) ∧
      (Body.ofKind .number).applyAll scoreCriteria = .ok score ∧
      ((built score).validateAt events 1 (some (.number 20)) .root (.new .strict)).result? =
        some (some (.number 20)) ∧
      Criterion.FirstReason score.settings (.number 15) scoreCriteria (.number (.between 0 10)) ∧
      ((built score).validateAt events 1 (some (.number 15)) .root (.new .strict)).fault? =
        some (.located .root (.number (.between 0 10))) ∧
      ((built score).validateAt events 1 (some (.string "20")) .root (.new .strict)).fault? =
        some (.located .root (.wrongKind .number)) := by
  have own : ∀ criterion ∈ scoreCriteria, criterion.isScalar .number = true := by
    simp [scoreCriteria, Criterion.isScalar]
  have applied : (Body.ofKind .number).applyAll scoreCriteria = .ok score := rfl
  have scored := fun (value : Value) (defined : value ≠ .null) =>
    validateAt_scalar events 0 .number scoreCriteria score own applied value defined .root
      (.new .strict) rfl
  obtain ⟨twenty, same, -⟩ := scored (.number 20) nofun
  obtain ⟨-, -, fifteen, -⟩ := scored (.number 15) nofun
  obtain ⟨-, -, -, text⟩ := scored (.string "20") nofun
  have excused : score.settings.Excuses (.number 20) := ⟨rfl, .number 20, rfl, rfl⟩
  have admitted : ∀ criterion ∈ scoreCriteria, criterion.Admits score.settings (.number 20) := by
    simp only [scoreCriteria, List.forall_mem_cons]
    exact ⟨.inr ⟨rfl, excused⟩, .inl trivial, .inl trivial, .inr ⟨rfl, excused⟩, nofun⟩
  have accepted : ((built score).validateAt events 1 (some (.number 20)) .root
      (.new .strict)).result? = some (some (.number 20)) := by
    obtain ⟨outcome, reached⟩ := twenty.mpr ⟨rfl, admitted⟩
    rwa [(same outcome reached).1 nofun] at reached
  have refused : ¬ ∀ criterion ∈ scoreCriteria, criterion.Admits score.settings (.number 15) := by
    intro all
    rcases all _ List.mem_cons_self with ⟨number, given, allowed⟩ | ⟨_, _, _, fixed, equal⟩
    · obtain rfl := Value.number.inj given
      rw [← NumberRule.holds_iff] at allowed
      cases allowed
    · cases fixed
      cases equal
  obtain ⟨reason, first, failed⟩ := fifteen rfl refused
  have bounds : reason = .number (.between 0 10) :=
    (congrArg Fault.reason (Option.some.inj failed)).symm
  exact ⟨own, applied, accepted, bounds ▸ first, bounds ▸ failed, text rfl⟩

end Assay
