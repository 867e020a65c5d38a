import Assay.Proofs.Essence

/-!
# Checks among the steps

A step that can only refuse leaves the value alone, so whether it lets a value pass depends on the
value that it meets and on nothing that other checks do (`Step.admits`). Several of them in a row
therefore let a value pass exactly when each of them does (`Body.takeSteps_checks`). So checks in a
row may be in any order, one check more can only refuse more, and lenient validation, which takes no
check, does not notice (`Schema.validateAt_checks`). Where all steps are checks, none of them
about content, the first objection decides (`Body.process_of_checks`).
-/
namespace Assay

variable {κ : Type} {host : Host κ} {members : Members κ} {settings : Settings κ} {path : Path}
  {scope : Scope}

/-! ## Checks and nothing else -/

namespace Check

/-- There is no reason where the condition holds. -/
@[simp] theorem reasonUnless_eq_none {condition : Bool} {reason : Reason} :
    reasonUnless condition reason = none ↔ condition = true := by
  cases condition <;> simp [reasonUnless]

/-- The reason is the given one, where the condition does not hold. -/
@[simp] theorem reasonUnless_eq_some {condition : Bool} {reason other : Reason} :
    reasonUnless condition reason = some other ↔ condition = false ∧ reason = other := by
  cases condition <;> simp [reasonUnless]

/-- The first objection of several checks to a value; lenient validation makes none. -/
def firstObjection? (host : Host κ) (checks : List (Check κ)) (value : Value) (path : Path)
    (scope : Scope) : Option Reason :=
  if scope.isStrict then checks.findSome? fun condition => condition.objection? host value path scope
  else none

/-- Strictly, checks have no first objection exactly when none of them objects. -/
theorem firstObjection?_eq_none_iff (strict : scope.isStrict = true) {checks : List (Check κ)}
    {value : Value} : firstObjection? host checks value path scope = none ↔
      ∀ condition ∈ checks, condition.objection? host value path scope = none := by
  rw [firstObjection?, if_pos strict, List.findSome?_eq_none_iff]

end Check

namespace Body

/-- Steps that are checks, none of them about content, leave the value as it is or refuse it for their
first objection. -/
theorem takeSteps_map_check {checks : List (Check κ)}
    (binding : ∀ condition ∈ checks, condition.isAboutContent = false) (value : Value) :
    takeSteps host members settings path scope (checks.map Step.check) value =
      match Check.firstObjection? host checks value path scope with
      | none => pure value
      | some reason => .reject (.located path reason) := by
  induction checks with
  | nil =>
    rw [Check.firstObjection?]
    split <;> simp_all [takeSteps]
  | cons condition rest ih =>
    obtain ⟨here, later⟩ := List.forall_mem_cons.mp binding
    have taken : (Step.check condition).isSkipped settings value = false := by
      simp [Step.isSkipped, Step.isAboutContent, here]
    rw [List.map_cons, takeSteps, taken, Bool.or_false]
    cases strict : scope.isStrict with
    | false =>
      have none : ∀ checks, Check.firstObjection? host checks value path scope = none := by
        simp [Check.firstObjection?, strict]
      rw [ih later, none, none]
      rfl
    | true =>
      rw [Check.firstObjection?, if_pos strict, List.findSome?_cons, Step.run, Check.run]
      cases condition.objection? host value path scope with
      | none =>
        refine (ih later).trans ?_
        rw [Check.firstObjection?, if_pos strict]
      | some reason => rfl

/-- Where all steps of a body are checks, none of them about content, a value that passes the type
check is coerced or refused for the first objection. -/
theorem process_of_checks {body : Body κ} {checks : List (Check κ)} {value : Value}
    (steps : body.steps = checks.map Step.check)
    (binding : ∀ condition ∈ checks, condition.isAboutContent = false)
    (checked : body.settings.kind.check value = true) :
    body.process host members value path scope =
      match Check.firstObjection? host checks value path scope with
      | none => pure (body.settings.kind.cast value)
      | some reason => .reject (.located path reason) := by
  rw [process, checked, Bool.not_true, Bool.and_false, if_neg Bool.false_ne_true, steps,
    takeSteps_map_check binding]
  cases Check.firstObjection? host checks value path scope <;> rfl

/-- Where all steps of a body are checks, none of them about content, strict validation accepts a
value that passes the type check if it may be there and no check objects, and coerces it. -/
theorem validate_of_checks {body : Body κ} {checks : List (Check κ)} {value : Value}
    (steps : body.steps = checks.map Step.check)
    (binding : ∀ condition ∈ checks, condition.isAboutContent = false) (defined : value ≠ .null)
    (checked : body.settings.kind.check value = true) :
    (body.validate host members (some value) path scope).result? =
      if body.settings.never && scope.isStrict then none
      else if (Check.firstObjection? host checks value path scope).isSome then none
      else some (some (body.settings.kind.cast value)) := by
  rw [Run.result?, validate_verdict defined, process_of_checks steps binding checked]
  cases body.settings.never && scope.isStrict with
  | true => rfl
  | false => cases Check.firstObjection? host checks value path scope <;> rfl

end Body

/-! ## Checks among other steps -/

/-- Whether the step is left out for the value or, taken with it, has a result. -/
def Step.admits (host : Host κ) (members : Members κ) (settings : Settings κ) (path : Path)
    (scope : Scope) (value : Value) (step : Step κ) : Bool :=
  (!scope.isStrict && step.role == .check) || step.isSkipped settings value ||
    (step.run host members settings value path scope).result?.isSome

namespace Body

/-- A check that lets the value pass leaves it to the other steps. -/
theorem takeSteps_of_admits {step : Step κ} {value : Value} (role : step.role = .check)
    (admitted : step.admits host members settings path scope value = true) (rest : List (Step κ)) :
    (takeSteps host members settings path scope (step :: rest) value).verdict =
      (takeSteps host members settings path scope rest value).verdict := by
  rw [takeSteps]
  split
  · rfl
  · rename_i taken
    rw [Step.admits, (Bool.not_eq_true _).mp taken, Bool.false_or] at admitted
    obtain ⟨replaced, ran⟩ := Option.isSome_iff_exists.mp admitted
    obtain rfl := Step.run_role_check_accepted role ran
    exact Run.verdict_bind_of_result ran _

/-- A check that does not let the value pass ends the steps without a result. -/
theorem takeSteps_of_not_admits {step : Step κ} {value : Value}
    (refused : step.admits host members settings path scope value = false) (rest : List (Step κ)) :
    (takeSteps host members settings path scope (step :: rest) value).result? = none := by
  rw [Step.admits, Bool.or_eq_false_iff] at refused
  obtain ⟨taken, stopped⟩ := refused
  have ended : (step.run host members settings value path scope).result? = none := by
    simpa using stopped
  simp [takeSteps, taken, Run.result?_bind, ended]

/-- Checks in a row leave a value that each of them lets pass to the other steps, and end without a
result for any other. -/
theorem takeSteps_checks {checks : List (Step κ)} (all : ∀ step ∈ checks, step.role = .check)
    (rest : List (Step κ)) (value : Value) :
    (takeSteps host members settings path scope (checks ++ rest) value).result? =
      if checks.all (Step.admits host members settings path scope value) then
        (takeSteps host members settings path scope rest value).result?
      else none := by
  induction checks with
  | nil => rfl
  | cons step others ih =>
    obtain ⟨role, later⟩ := List.forall_mem_cons.mp all
    rw [List.cons_append, List.all_cons]
    cases admitted : step.admits host members settings path scope value with
    | true =>
      rw [Run.result?_congr (takeSteps_of_admits role admitted _), Bool.true_and]
      exact ih later
    | false => exact takeSteps_of_not_admits admitted _

/-- The steps after others are taken with the value that these left. -/
theorem takeSteps_append (before after : List (Step κ)) (value : Value) :
    (takeSteps host members settings path scope (before ++ after) value).result? =
      (takeSteps host members settings path scope before value).result?.bind fun left =>
        (takeSteps host members settings path scope after left).result? := by
  induction before generalizing value with
  | nil => rfl
  | cons step rest ih =>
    rw [List.cons_append, takeSteps, takeSteps]
    split
    · exact ih value
    · simp only [Run.result?_bind, Option.bind_assoc, ih]

/-- Checks in a row may be in any order, whatever comes before and after them. -/
theorem takeSteps_perm {checks others : List (Step κ)} (all : ∀ step ∈ checks, step.role = .check)
    (perm : checks.Perm others) (before after : List (Step κ)) (value : Value) :
    (takeSteps host members settings path scope (before ++ checks ++ after) value).result? =
      (takeSteps host members settings path scope (before ++ others ++ after) value).result? := by
  have also : ∀ step ∈ others, step.role = .check := by
    intro step listed
    exact all step (perm.mem_iff.mpr listed)
  have same : ∀ left, checks.all (Step.admits host members settings path scope left) =
      others.all (Step.admits host members settings path scope left) := fun left => perm.all_eq
  simp only [List.append_assoc, takeSteps_append before, takeSteps_checks all,
    takeSteps_checks also, same]

/-- One check more refuses what was refused, and leaves what it does not refuse as it was. -/
theorem takeSteps_insert {check : Step κ} (role : check.role = .check)
    (before after : List (Step κ)) (value : Value) :
    (takeSteps host members settings path scope (before ++ check :: after) value).Refines
      (takeSteps host members settings path scope (before ++ after) value) := by
  intro final accepted
  rw [takeSteps_append, Option.bind_eq_some_iff] at accepted ⊢
  obtain ⟨left, reached, ended⟩ := accepted
  refine ⟨left, reached, ?_⟩
  cases admitted : check.admits host members settings path scope left with
  | true => rwa [Run.result?_congr (takeSteps_of_admits role admitted after)] at ended
  | false =>
    rw [takeSteps_of_not_admits admitted] at ended
    cases ended

/-- Bodies with the same settings refine one another as their steps do. -/
theorem validate_refines {steps later : List (Step κ)} {typeName : String}
    (taken : ∀ value, (takeSteps host members settings path scope steps value).Refines
      (takeSteps host members { settings with typeName := typeName } path scope later value))
    (value : Option Value) :
    (validate host members ⟨settings, steps⟩ value path scope).Refines
      (validate host members ⟨{ settings with typeName := typeName }, later⟩ value path scope) := by
  have received : (receive host settings value path scope).Refines
      (receive host { settings with typeName := typeName } value path scope) := by
    cases value <;> exact .refl _
  apply received.bind
  intro outcome
  cases outcome with
  | none => exact .refl _
  | some given =>
    have processed : (process host members ⟨settings, steps⟩ given path scope).Refines
        (process host members ⟨{ settings with typeName := typeName }, later⟩ given path
          scope) := by
      unfold process
      dsimp only
      split
      · exact .refl _
      · exact (taken given).bind fun _ => .refl _
    dsimp only
    split
    · exact .refl _
    · exact processed.bind fun _ => .refl _

end Body

namespace Schema

variable {depth : Nat}

/-- A schema with one step replaced by others refines it as their steps do, whatever the members. -/
theorem validateAt_refines {steps later : List (Step κ)}
    (taken : ∀ members value, (Body.takeSteps host members settings path scope steps value).Refines
      (Body.takeSteps host members settings path scope later value)) (value : Option Value) :
    ((built ⟨settings, steps⟩).validateAt host depth value path scope).Refines
      ((built ⟨settings, later⟩).validateAt host depth value path scope) := by
  cases depth with
  | zero => exact .refl _
  | succ depth => exact Body.validate_refines (taken _) value

/-- Lenient validation does not notice steps that can only refuse. -/
theorem validateAt_lenient_eq {steps later : List (Step κ)} (lenient : scope.isStrict = false)
    (same : Step.rebuilding steps = Step.rebuilding later) (value : Option Value) :
    (built ⟨settings, steps⟩).validateAt host depth value path scope =
      (built ⟨settings, later⟩).validateAt host depth value path scope := by
  cases depth with
  | zero => rfl
  | succ depth =>
    have taken : ∀ value,
        Body.takeSteps host (membersAt host depth) settings path scope steps value =
          Body.takeSteps host (membersAt host depth) settings path scope later value := by
      intro value
      rw [Body.takeSteps_rebuilding settings lenient, same,
        ← Body.takeSteps_rebuilding settings lenient]
    have processed : ∀ value,
        Body.process host (membersAt host depth) ⟨settings, steps⟩ value path scope =
          Body.process host (membersAt host depth) ⟨settings, later⟩ value path scope := by
      intro value
      simp only [Body.process, taken]
    change Body.validate host (membersAt host depth) ⟨settings, steps⟩ value path scope =
      Body.validate host (membersAt host depth) ⟨settings, later⟩ value path scope
    simp only [Body.validate, processed]

/-- In every schema, checks that stand in a row may be in any other order: the same input is
accepted, with the same result. With one check more, at any place, nothing is accepted that was not,
what is still accepted has the same result, and a lenient validation is the same run. -/
theorem validateAt_checks (host : Host κ) (depth : Nat) (settings : Settings κ)
    (before after : List (Step κ)) (value : Option Value) (path : Path) (scope : Scope) :
    (∀ checks others : List (Step κ), (∀ step ∈ checks, step.role = .check) →
      checks.Perm others →
        ((built ⟨settings, before ++ checks ++ after⟩).validateAt host depth value path
            scope).result? =
          ((built ⟨settings, before ++ others ++ after⟩).validateAt host depth value path
            scope).result?) ∧
    ∀ check : Step κ, check.role = .check →
      (∀ outcome, ((built ⟨settings, before ++ check :: after⟩).validateAt host depth value path
          scope).result? = some outcome →
        ((built ⟨settings, before ++ after⟩).validateAt host depth value path scope).result? =
          some outcome) ∧
      (scope.mode = .lenient →
        (built ⟨settings, before ++ check :: after⟩).validateAt host depth value path scope =
          (built ⟨settings, before ++ after⟩).validateAt host depth value path scope) := by
  constructor
  · intro checks others all perm
    have same : ∀ members value,
        (Body.takeSteps host members settings path scope (before ++ checks ++ after)
            value).result? =
          (Body.takeSteps host members settings path scope (before ++ others ++ after)
            value).result? := fun _ => Body.takeSteps_perm all perm before after
    apply Run.Refines.antisymm
    · apply validateAt_refines
      intro members value final accepted
      exact (same members value).symm.trans accepted
    · apply validateAt_refines
      intro members value final accepted
      exact (same members value).trans accepted
  · intro check role
    constructor
    · exact validateAt_refines (fun _ => Body.takeSteps_insert role before after) value
    · intro lenient
      apply validateAt_lenient_eq (Scope.isStrict_of_lenient lenient)
      simp only [Step.rebuilding, List.filter_append]
      exact congrArg _ (Step.rebuilding_cons_of_check role after)

end Schema

/-- Tags must be two. -/
def pair : Step Unit := .check (.size .array (.exactly 2))

/-- Two checks on tags. -/
def tagChecks : List (Step Unit) := [.check (.size .array .notEmpty), pair]

/-- Two tags are accepted in whichever order they are checked, and with the second check left out. One
tag is refused by that check, but not leniently. -/
theorem Schema.validateAt_checks_tags :
    let two : Value := .array [.string "first", .string "second"]
    let one : Value := .array [.string "first"]
    (∀ step ∈ tagChecks, step.role = .check) ∧ tagChecks.Perm tagChecks.reverse ∧
    ((built ⟨tags.settings, tags.steps ++ tagChecks.reverse ++ []⟩).validateAt events 2 (some two)
      .root (.new .strict)).result? = some (some two) ∧
    pair.role = .check ∧
    ((built ⟨tags.settings, tags.steps ++ pair :: []⟩).validateAt events 2 (some two)
      .root (.new .strict)).result? = some (some two) ∧
    ((built ⟨tags.settings, tags.steps ++ []⟩).validateAt events 2 (some two)
      .root (.new .strict)).result? = some (some two) ∧
    ((built ⟨tags.settings, tags.steps ++ pair :: []⟩).validateAt events 2 (some one)
      .root (.new .strict)).result? = none ∧
    (built ⟨tags.settings, tags.steps ++ pair :: []⟩).validateAt events 2 (some one)
        .root (.new .lenient) =
      (built ⟨tags.settings, tags.steps ++ []⟩).validateAt events 2 (some one)
        .root (.new .lenient) := by
  intro two one
  have all : ∀ step ∈ tagChecks, step.role = .check := by
    intro step listed
    rcases List.mem_pair.mp listed with rfl | rfl <;> rfl
  have perm : tagChecks.Perm tagChecks.reverse := (List.reverse_perm _).symm
  have ordered := (validateAt_checks events 2 tags.settings tags.steps [] (some two) .root
    (.new .strict)).1 tagChecks tagChecks.reverse all perm
  have strictly := (validateAt_checks events 2 tags.settings tags.steps [] (some two) .root
    (.new .strict)).2 pair rfl
  have leniently := (validateAt_checks events 2 tags.settings tags.steps [] (some one) .root
    (.new .lenient)).2 pair rfl
  exact ⟨all, perm, ordered.symm.trans rfl, rfl, rfl, strictly.1 _ rfl, rfl, leniently.2 rfl⟩

end Assay
