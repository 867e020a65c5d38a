import Assay.Proofs.Presence
import Assay.Proofs.Scalars

/-!
# Spellings of an instant

An instant may be given as a date, as a timestamp with any offset or as a number of milliseconds. A
date schema without callbacks looks at the instant that a value denotes and at nothing else: its type
check, its rules and its coercion do (`Check.ReadsInstants`). So it takes every spelling for the date
itself (`Body.validate_spelling`), and which dates it accepts strictly is said by its rules alone
(`Schema.validateAt_spellings`).
-/
namespace Assay

variable {κ : Type} {host : Host κ} {members : Members κ} {settings : Settings κ} {path : Path}
  {scope : Scope}

/-! ## Checks of instants -/

namespace Check

/-- The checks see no more of a value than the instant that it denotes. -/
def ReadsInstants (host : Host κ) (checks : List (Check κ)) : Prop :=
  ∀ condition ∈ checks, ∀ value other path scope, value.toInstant? = other.toInstant? →
    condition.objection? host value path scope = condition.objection? host other path scope

/-- Checks that see instants only have the same first objection to all spellings. -/
theorem ReadsInstants.firstObjection?_eq {checks : List (Check κ)} (reads : ReadsInstants host checks)
    {value other : Value} (same : value.toInstant? = other.toInstant?) :
    firstObjection? host checks value path scope = firstObjection? host checks other path scope := by
  have each : checks.findSome? (fun condition => condition.objection? host value path scope) =
      checks.findSome? fun condition => condition.objection? host other path scope := by
    induction checks with
    | nil => rfl
    | cons condition rest ih =>
      obtain ⟨here, later⟩ := List.forall_mem_cons.mp reads
      rw [List.findSome?_cons, List.findSome?_cons, here value other path scope same, ih later]
  rw [firstObjection?, firstObjection?, each]

end Check

namespace Body

/-- Defined values that are processed alike are validated alike. -/
theorem validate_congr {body : Body κ} {value other : Value} (defined : value ≠ .null)
    (also : other ≠ .null)
    (same : body.process host members value path scope =
      body.process host members other path scope) :
    body.validate host members (some value) path scope =
      body.validate host members (some other) path scope := by
  have here := Value.isNull_eq_false_iff.mpr defined
  have there := Value.isNull_eq_false_iff.mpr also
  rw [validate, validate, receive, receive]
  -- Neither the notice nor the ban looks at the value.
  cases body.settings.deprecated <;> cases body.settings.never && scope.isStrict <;>
    simp only [Bind.bind, Pure.pure, Run.andThen, Run.accept, Run.note, Run.reject, here, there, same,
      Bool.false_eq_true, if_false, if_true]

/-- Where all steps of a body of dates are checks, none of them about content, that see instants only,
a spelling is taken for the date itself. -/
theorem validate_spelling {body : Body κ} {checks : List (Check κ)} {value : Value}
    {instant : Instant} (dated : body.settings.kind = .date)
    (steps : body.steps = checks.map Step.check)
    (binding : ∀ condition ∈ checks, condition.isAboutContent = false)
    (reads : Check.ReadsInstants host checks) (denoted : value.toInstant? = some instant) :
    body.validate host members (some value) path scope =
      body.validate host members (some (.date instant)) path scope := by
  have given : value ≠ .null := by
    rintro rfl
    cases denoted
  have checked : body.settings.kind.check value = true := by rw [dated, Kind.check, denoted]; rfl
  have also : body.settings.kind.check (.date instant) = true := by rw [dated]; rfl
  have coerced : body.settings.kind.cast value = .date instant := by
    obtain ⟨found, spelled, cast⟩ := Kind.cast_date (dated ▸ checked)
    rw [dated, cast, Option.some.inj (spelled.symm.trans denoted)]
  have kept : body.settings.kind.cast (.date instant) = .date instant := by rw [dated]; rfl
  refine validate_congr given (show Value.date instant ≠ .null from nofun) ?_
  rw [process_of_checks steps binding checked, process_of_checks steps binding also, coerced, kept,
    reads.firstObjection?_eq (show value.toInstant? = (Value.date instant).toInstant? from denoted)]

end Body

namespace Criterion

/-- Whether a criterion bounds dates, or is about null, undefined or unwanted input, the default, a
notice or the fields beside. -/
def isChronological : Criterion κ → Bool
  | date _ | presence .. | nullable _ | required _ | never | .deprecate _ | default _
  | computedDefault _ => true
  | _ => false

/-- The check that such a criterion registers. -/
def chronologicalCheck? : Criterion κ → Option (Check κ)
  | date rule => some (.date rule)
  | presence rule beside => some (.presence rule beside)
  | _ => none

/-- The step that such a criterion registers does not depend on the settings. -/
theorem step?_chronological {criterion : Criterion κ} (own : criterion.isChronological = true)
    (settings : Settings κ) :
    criterion.step? settings = criterion.chronologicalCheck?.map Step.check := by
  cases criterion <;> first | rfl | cases own

/-- The checks are those of the rules on dates and of the presence rules. -/
theorem mem_chronologicalChecks {criteria : List (Criterion κ)} {condition : Check κ} :
    condition ∈ criteria.filterMap chronologicalCheck? ↔
      (∃ rule, condition = .date rule ∧ .date rule ∈ criteria) ∨
        ∃ rule beside, condition = .presence rule beside ∧ .presence rule beside ∈ criteria := by
  rw [List.mem_filterMap]
  constructor
  · rintro ⟨criterion, listed, registered⟩
    cases criterion with
    | date rule => exact .inl ⟨rule, (Option.some.inj registered).symm, listed⟩
    | presence rule beside => exact .inr ⟨rule, beside, (Option.some.inj registered).symm, listed⟩
    | _ => cases registered
  · rintro (⟨rule, rfl, listed⟩ | ⟨rule, beside, rfl, listed⟩)
    · exact ⟨.date rule, listed, rfl⟩
    · exact ⟨.presence rule beside, listed, rfl⟩

/-- None of them is about content. -/
theorem chronologicalChecks_bind (criteria : List (Criterion κ)) :
    ∀ condition ∈ criteria.filterMap chronologicalCheck?, condition.isAboutContent = false := by
  intro condition listed
  rcases mem_chronologicalChecks.mp listed with ⟨_, rfl, _⟩ | ⟨_, _, rfl, _⟩ <;> rfl

/-- They see instants only. -/
theorem chronologicalChecks_read (criteria : List (Criterion κ)) :
    Check.ReadsInstants host (criteria.filterMap chronologicalCheck?) := by
  intro condition listed value other path scope same
  rcases mem_chronologicalChecks.mp listed with ⟨rule, rfl, _⟩ | ⟨_, _, rfl, _⟩
  · rw [Check.objection?, Check.objection?, same]
  · rfl

/-- No check objects to a date when all rules on dates allow it and all presence rules the object
beside. -/
theorem chronologicalChecks_pass {criteria : List (Criterion κ)} {instant : Instant} :
    (∀ condition ∈ criteria.filterMap chronologicalCheck?,
      condition.objection? host (.date instant) path scope = none) ↔
      (∀ rule, .date rule ∈ criteria → rule.Allows instant) ∧
      ∀ rule beside, .presence rule beside ∈ criteria →
        rule.holds (PresenceRule.presentCount (PresenceRule.group beside path) scope.current)
          (PresenceRule.group beside path).length = true := by
  have dated : ∀ rule : DateRule, (Check.date rule : Check κ).objection? host (.date instant) path
      scope = none ↔ rule.Allows instant := by
    intro rule
    rw [Check.objection?, Check.reasonUnless_eq_none, ← rule.holds_iff]
    rfl
  have counted : ∀ rule beside, (Check.presence rule beside : Check κ).objection? host
      (.date instant) path scope = none ↔
        rule.holds (PresenceRule.presentCount (PresenceRule.group beside path) scope.current)
          (PresenceRule.group beside path).length = true :=
    fun _ _ => Check.reasonUnless_eq_none
  constructor
  · intro pass
    constructor
    · intro rule listed
      exact (dated rule).mp (pass _ (mem_chronologicalChecks.mpr (.inl ⟨rule, rfl, listed⟩)))
    · intro rule beside listed
      exact (counted rule beside).mp
        (pass _ (mem_chronologicalChecks.mpr (.inr ⟨rule, beside, rfl, listed⟩)))
  · rintro ⟨bounded, grouped⟩ condition listed
    rcases mem_chronologicalChecks.mp listed with ⟨rule, rfl, among⟩ | ⟨rule, beside, rfl, among⟩
    · exact (dated rule).mpr (bounded rule among)
    · exact (counted rule beside).mpr (grouped rule beside among)

end Criterion

/-- Every spelling of an instant is validated as every other one, event by event. Strict validation
accepts it if it may be there, all rules on dates allow the instant and all presence rules the object
beside, lenient validation always does, and what it leaves is the date. -/
theorem Schema.validateAt_spellings (host : Host κ) (depth : Nat) (criteria : List (Criterion κ))
    (body : Body κ) (own : ∀ criterion ∈ criteria, criterion.isChronological = true)
    (applied : (Body.ofKind .date).applyAll criteria = .ok body) (first second : Value)
    (instant : Instant) (one : first.toInstant? = some instant)
    (other : second.toInstant? = some instant) (path : Path) (scope : Scope) :
    let run := fun value => (built body).validateAt host (depth + 1) (some value) path scope
    run first = run second ∧
    (∀ outcome, (run first).result? = some outcome → outcome = some (.date instant)) ∧
    (scope.mode = .strict → ((∃ outcome, (run first).result? = some outcome) ↔
      body.settings.never = false ∧ (∀ rule, .date rule ∈ criteria → rule.Allows instant) ∧
      ∀ rule beside, .presence rule beside ∈ criteria →
        rule.holds (PresenceRule.presentCount (PresenceRule.group beside path) scope.current)
          (PresenceRule.group beside path).length = true)) ∧
    (scope.mode = .lenient → ∃ outcome, (run first).result? = some outcome) := by
  intro run
  have dated : body.settings.kind = .date := Body.applyAll_kind applied
  have steps : body.steps = (criteria.filterMap Criterion.chronologicalCheck?).map Step.check := by
    rw [Body.applyAll_ok applied, Body.refineAll_checks fun criterion listed =>
      Criterion.step?_chronological (own criterion listed)]
    rfl
  have binding := Criterion.chronologicalChecks_bind criteria
  have spelled : ∀ value : Value, value.toInstant? = some instant →
      run value = run (.date instant) := fun value denoted =>
    Body.validate_spelling dated steps binding (Criterion.chronologicalChecks_read criteria) denoted
  have ended : (run first).result? = if body.settings.never && scope.isStrict then none
      else if (Check.firstObjection? host (criteria.filterMap Criterion.chronologicalCheck?)
        (.date instant) path scope).isSome then none
      else some (some (.date instant)) := by
    rw [spelled first one]
    refine (Body.validate_of_checks steps binding (show Value.date instant ≠ .null from nofun)
      (by rw [dated]; rfl)).trans ?_
    rw [dated]
    rfl
  refine ⟨(spelled first one).trans (spelled second other).symm, ?_, ?_, ?_⟩
  · intro outcome accepted
    rw [ended] at accepted
    split_ifs at accepted
    exact (Option.some.inj accepted).symm
  · intro strict
    have strictly := Scope.isStrict_of_mode strict
    rw [ended, strictly, ← Criterion.chronologicalChecks_pass,
      ← Check.firstObjection?_eq_none_iff strictly]
    cases body.settings.never <;>
      cases Check.firstObjection? host (criteria.filterMap Criterion.chronologicalCheck?)
        (.date instant) path scope <;> simp
  · intro lenient
    have leniently := Scope.isStrict_of_lenient lenient
    refine ⟨some (.date instant), ?_⟩
    rw [ended, Check.firstObjection?, leniently]
    simp

/-- The criteria of a start time: it must come within a day, the end time may stand in for it, and a
notice is given. -/
def startTime : List (Criterion Unit) :=
  [.date (.between ⟨0, 0⟩ ⟨86400, 0⟩), .presence .any ["end"], .deprecate "Use a period instead."]

/-- A second into the day may be given in milliseconds or as a timestamp from one hour east. -/
theorem Schema.validateAt_spellings_startTime :
    let body := startTime.foldl Body.refine (Body.ofKind .date)
    let milliseconds := Value.number 1000
    let timestamp := Value.string "1970-01-01T01:00:01+01:00"
    let scope := (Scope.new .strict).withCurrent (.object [("start", milliseconds)])
    let run := fun value => (built body).validateAt events 1 (some value) (Path.root.key "start") scope
    (∀ criterion ∈ startTime, criterion.isChronological = true) ∧
      (Body.ofKind .date).applyAll startTime = .ok body ∧
      milliseconds.toInstant? = some ⟨1, 0⟩ ∧ timestamp.toInstant? = some ⟨1, 0⟩ ∧
      run milliseconds = run timestamp ∧
      (run milliseconds).result? = some (some (.date ⟨1, 0⟩)) := by
  intro body milliseconds timestamp scope run
  have own : ∀ criterion ∈ startTime, criterion.isChronological = true := by
    simp [startTime, Criterion.isChronological]
  have one : milliseconds.toInstant? = some ⟨1, 0⟩ := rfl
  have other : timestamp.toInstant? = some ⟨1, 0⟩ := by decide +kernel
  obtain ⟨alike, dated, accepts, _⟩ := validateAt_spellings events 0 startTime body own rfl
    milliseconds timestamp ⟨1, 0⟩ one other (Path.root.key "start") scope
  have bounded : ∀ rule, .date rule ∈ startTime → rule.Allows ⟨1, 0⟩ := by
    intro rule listed
    simp only [startTime, List.mem_cons, Criterion.date.injEq, reduceCtorEq, List.not_mem_nil,
      or_false] at listed
    subst listed
    exact (DateRule.holds_iff _ _).mp rfl
  have beside : ∀ rule keys, .presence rule keys ∈ startTime →
      rule.holds (PresenceRule.presentCount (PresenceRule.group keys (Path.root.key "start"))
        scope.current) (PresenceRule.group keys (Path.root.key "start")).length = true := by
    intro rule keys listed
    simp only [startTime, List.mem_cons, Criterion.presence.injEq, reduceCtorEq, List.not_mem_nil,
      or_false, false_or] at listed
    obtain ⟨rfl, rfl⟩ := listed
    rfl
  obtain ⟨outcome, reached⟩ := (accepts rfl).mpr ⟨rfl, bounded, beside⟩
  rw [dated outcome reached] at reached
  exact ⟨own, rfl, one, other, alike, reached⟩

end Assay
