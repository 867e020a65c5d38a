import Assay.Proofs.Calls
import Assay.Proofs.Construction

/-!
# What lenient validation refuses

Lenient validation checks nothing, so the only thing that it can refuse is a schema that should not
be: a union with a member that stands for a union, which escapes the construction when the member is
deferred. Whatever a lenient validation ends with, the calls of a body pass it on
(`Body.validate_tolerated`). Hence a fault is always that of a nested union on the way, and without
one a schema whose deferred parts come to an end accepts every input
(`Schema.validateAt_lenient_refuses`).
-/
namespace Assay

variable {κ : Type}

namespace Body

/-- The body comes from a constructor by criteria, of whatever kind. -/
def Composed (body : Body κ) : Prop :=
  ∃ (start : Body κ) (criteria : List (Criterion κ)), start.Started ∧
    start.applyAll criteria = .ok body

/-- No union of the body has a union among its members, deferred ones not looked up. -/
def Flat (body : Body κ) : Prop :=
  ∀ schemas, .members schemas ∈ body.steps → ∀ schema ∈ schemas, schema.kind ≠ .union

/-- A criterion that means something registers no union of unions. -/
theorem Flat.refine {body : Body κ} {criterion : Criterion κ} (flat : body.Flat)
    (meant : criterion.misuse? body.settings = none) : (body.refine criterion).Flat := by
  intro schemas listed schema member
  rcases List.mem_append.mp listed with old | new
  · exact flat schemas old schema member
  · have registered := Option.mem_toList.mp new
    cases criterion with
    | members declared =>
      obtain rfl := Step.members.inj (Option.some.inj registered)
      intro union
      have nested : (declared.any fun schema => schema.kind == .union) = true :=
        List.any_eq_true.mpr ⟨schema, member, beq_iff_eq.mpr union⟩
      rw [Criterion.misuse?, nested] at meant
      split at meant <;> cases meant
    | only =>
      obtain ⟨_, _, other⟩ := Option.map_eq_some_iff.mp registered
      cases other
    | _ => cases registered

/-- A body that was composed has no union of unions. -/
theorem Composed.flat {body : Body κ} (composed : body.Composed) : body.Flat := by
  obtain ⟨start, criteria, started, applied⟩ := composed
  have invariant : ∀ {before after : Body κ} {criteria : List (Criterion κ)}, before.Flat →
      before.applyAll criteria = .ok after → after.Flat := fun flat applied =>
    applyAll_invariant Flat (fun _ _ _ meant flat => flat.refine meant) flat applied
  have empty : ∀ kind : Kind, (ofKind kind : Body κ).Flat := fun kind schemas listed => by
    cases listed
  refine invariant ?_ applied
  cases started with
  | plain kind free => exact empty kind
  | union built => exact invariant (empty .union) built
  | _ =>
    intro schemas listed
    cases List.mem_singleton.mp listed

end Body

namespace Schema

/-- On the way through the schema there is a union with a deferred member that stands for one. -/
def HoldsNestedUnion (host : Host κ) (schema : Schema κ) : Prop :=
  ∃ body schemas name target, schema.Reaches host body ∧ .members schemas ∈ body.steps ∧
    .deferred name ∈ schemas ∧ (deferred name).ResolvesTo host target ∧
    target.settings.kind = .union

/-- The schema comes to an end within a depth, deferred schemas looked up. -/
inductive Unfolds (host : Host κ) : Nat → Schema κ → Prop
  /-- A body does when the schemas that its steps hand values on to do, one level below. -/
  | built {depth : Nat} {body : Body κ}
      (later : ∀ step ∈ body.steps, ∀ inner ∈ step.schemas, Unfolds host depth inner) :
      Unfolds host (depth + 1) (.built body)
  /-- A name does when what it stands for does, one level below. -/
  | deferred {depth : Nat} {name : String} {target : Schema κ}
      (defined : host.definitions name = .ok target) (later : Unfolds host depth target) :
      Unfolds host (depth + 1) (.deferred name)

end Schema

variable {faults : Fault → Prop} {halts : Prop} {path : Path} {scope : Scope}

namespace Members

variable {members : Members κ} {schema : Schema κ}

/-- Lenient validations of the schema end within bounds. -/
def Tolerates (members : Members κ) (faults : Fault → Prop) (halts : Prop) (schema : Schema κ) :
    Prop :=
  ∀ value path scope, scope.isStrict = false →
    (members.validate schema value path scope).EndsWithin faults halts

end Members

namespace Body

variable {host : Host κ} {members : Members κ} {body : Body κ}

/-- A lenient validation ends within the bounds of the members. -/
theorem validate_tolerated
    (tolerates : ∀ step ∈ body.steps, ∀ schema ∈ step.schemas,
      members.Tolerates faults halts schema)
    (kinds : ∀ step ∈ body.steps, ∀ schema ∈ step.schemas,
      (members.kind schema).EndsWithin faults halts)
    (nested : ∀ schemas, .members schemas ∈ body.steps → ∀ schema ∈ schemas,
      (members.kind schema).result? = some .union → ∀ path, faults (.located path .nestedUnion))
    (lenient : scope.isStrict = false) (value : Option Value) :
    (body.validate host members value path scope).EndsWithin faults halts := by
  have loose : ¬ scope.isStrict = true := by rw [lenient]; exact Bool.false_ne_true
  refine validate_endsWithin (fun strict => absurd strict loose) fun given _ _ => ?_
  refine takeSteps_endsWithin_of_each fun step taken due value => ?_
  have rebuilds : step.role = .rebuild := due.resolve_left loose
  refine Step.run_endsWithin (fun own => ?_) (fun strict => absurd strict loose) ?_ ?_ ?_
  · rw [rebuilds] at own
    exact absurd own (by simp [lenient])
  · rintro schemas rfl schema listed union
    exact nested schemas taken schema listed union path
  · rintro schemas rfl schema listed
    exact kinds _ taken schema listed
  · intro schema input place inside calls
    exact tolerates step taken schema calls.handed input place inside
      (calls.isStrict.trans lenient)

end Body

namespace Schema

variable {host : Host κ}

/-- Looking a kind up never fails, and comes to an end within the depth that the schema does. -/
theorem resolvedKind_endsWithin {schema : Schema κ} {depth : Nat}
    (ending : halts ∨ schema.Unfolds host depth) :
    (schema.resolvedKind host depth).EndsWithin faults halts := by
  induction depth generalizing schema with
  | zero =>
    cases schema with
    | built body => exact .pure _
    | deferred name =>
      rcases ending with halted | unfolds
      · exact halted
      · cases unfolds
  | succ depth ih =>
    cases schema with
    | built body => exact .pure _
    | deferred name =>
      rw [resolvedKind]
      refine Run.EndsWithin.bind (.ofMisuse ?_) fun target found => ih ?_
      · refine ending.imp_right fun unfolds => ?_
        cases unfolds with
        | deferred defined _ => exact ⟨_, defined⟩
      · refine ending.imp_right fun unfolds => ?_
        cases unfolds with
        | deferred defined later =>
          have same := defined.symm.trans (Run.result?_ofMisuse_eq_some.mp found)
          exact Except.ok.inj same ▸ later

/-- Looking a kind up ends with no fault. -/
theorem resolvedKind_fault? (host : Host κ) (schema : Schema κ) (depth : Nat) :
    (schema.resolvedKind host depth).fault? = none := by
  have never : (schema.resolvedKind host depth).EndsWithin (fun _ => False) True :=
    resolvedKind_endsWithin (.inl trivial)
  cases failed : (schema.resolvedKind host depth).fault? with
  | none => rfl
  | some fault => exact (never.fault failed).elim

/-- Lenient validation ends within bounds that hold the faults of the nested unions on the way. -/
theorem membersAt_tolerates {schema : Schema κ} {depth : Nat}
    (nested : schema.Throughout host fun body => ∀ schemas, .members schemas ∈ body.steps →
      ∀ member ∈ schemas, ∀ target, member.ResolvesTo host target → target.settings.kind = .union →
        ∀ path, faults (.located path .nestedUnion))
    (ending : halts ∨ schema.Unfolds host depth) :
    (membersAt host depth).Tolerates faults halts schema := by
  induction depth generalizing schema with
  | zero =>
    intro value path scope lenient
    rcases ending with halted | unfolds
    · exact halted
    · cases unfolds
  | succ depth ih =>
    intro value path scope lenient
    cases schema with
    | built body =>
      have below : ∀ step ∈ body.steps, ∀ inner ∈ step.schemas,
          halts ∨ inner.Unfolds host depth := by
        intro step taken inner handed
        refine ending.imp_right fun unfolds => ?_
        cases unfolds with
        | built later => exact later step taken inner handed
      refine Body.validate_tolerated
        (fun step taken inner handed => ih (nested.member taken handed) (below _ taken _ handed))
        (fun step taken inner handed => resolvedKind_endsWithin (below _ taken _ handed))
        (fun schemas listed member among found => ?_) lenient value
      obtain ⟨target, resolved, union⟩ := resolvedKind_accepted found
      exact nested.here schemas listed member among target resolved union
    | deferred name =>
      refine Run.EndsWithin.bind (.ofMisuse ?_) fun target found => ?_
      · refine ending.imp_right fun unfolds => ?_
        cases unfolds with
        | deferred defined _ => exact ⟨_, defined⟩
      · have defined := Run.result?_ofMisuse_eq_some.mp found
        refine ih (nested.target defined) (ending.imp_right fun unfolds => ?_) value path scope
          lenient
        cases unfolds with
        | deferred again later => exact Except.ok.inj (again.symm.trans defined) ▸ later

/-- A member of a union on the way that stands for a union was deferred. -/
theorem holdsNestedUnion_of_reaches {schema member : Schema κ} {body target : Body κ}
    {schemas : List (Schema κ)} (composed : schema.Throughout host Body.Composed)
    (reached : schema.Reaches host body) (listed : .members schemas ∈ body.steps)
    (among : member ∈ schemas) (resolved : member.ResolvesTo host target)
    (union : target.settings.kind = .union) : schema.HoldsNestedUnion host := by
  cases member with
  | built inner =>
    cases resolved
    exact absurd union ((composed body reached).flat schemas listed _ among)
  | deferred name => exact ⟨body, schemas, name, target, reached, listed, among, resolved, union⟩

/-- A lenient validation fails only because of a nested union on the way through the schema. Without
one it never fails, and has an outcome if the schema comes to an end. -/
theorem validateAt_lenient_refuses (host : Host κ) (depth : Nat) (schema : Schema κ)
    (value : Option Value) (path : Path) (scope : Scope)
    (composed : schema.Throughout host Body.Composed) (lenient : scope.mode = .lenient) :
    (∀ fault, (schema.validateAt host depth value path scope).fault? = some fault →
      fault.reason.message = "Nested unions are not supported." ∧ fault.causes = [] ∧
        schema.HoldsNestedUnion host) ∧
    (¬ schema.HoldsNestedUnion host →
      (schema.validateAt host depth value path scope).fault? = none ∧
        (schema.Unfolds host depth →
          ∃ outcome, (schema.validateAt host depth value path scope).result? = some outcome)) := by
  have leniently : scope.isStrict = false := Scope.isStrict_of_lenient lenient
  have blamed : ∀ fault, (schema.validateAt host depth value path scope).fault? = some fault →
      fault.reason.message = "Nested unions are not supported." ∧ fault.causes = [] ∧
        schema.HoldsNestedUnion host := by
    intro fault rejected
    have tolerates : (membersAt host depth).Tolerates (fun fault =>
        fault.reason.message = "Nested unions are not supported." ∧ fault.causes = [] ∧
          schema.HoldsNestedUnion host) True schema :=
      membersAt_tolerates (fun body reached schemas listed member among target resolved union _ =>
        ⟨rfl, rfl, holdsNestedUnion_of_reaches composed reached listed among resolved union⟩)
        (.inl trivial)
    exact (tolerates value path scope leniently).fault rejected
  refine ⟨blamed, fun sound => ⟨?_, fun unfolds => ?_⟩⟩
  · cases ended : (schema.validateAt host depth value path scope).fault? with
    | none => rfl
    | some fault => exact absurd (blamed fault ended).2.2 sound
  · have tolerates : (membersAt host depth).Tolerates (fun _ => False) False schema :=
      membersAt_tolerates (fun body reached schemas listed member among target resolved union _ =>
        sound (holdsNestedUnion_of_reaches composed reached listed among resolved union))
        (.inr unfolds)
    exact (tolerates value path scope leniently).result

end Schema

/-- An amount is a text or a choice, which is itself a union. -/
def amount : Body Unit :=
  [.members [.built (.ofKind .string), .deferred "choice"], .default (.string "")].foldl
    Body.refine (.ofKind .union)

/-- What holds of a choice and its members holds throughout. -/
theorem choice_throughout {property : Body Unit → Prop} (whole : property choice)
    (number : property (.ofKind .number)) (text : property (.ofKind .string)) :
    (Schema.deferred "choice").Throughout counts property := by
  refine .deferred rfl (.built whole fun step taken inner handed => ?_)
  obtain rfl := List.mem_singleton.mp taken
  rcases List.mem_pair.mp handed with rfl | rfl
  · exact .built number fun _ listed => by cases listed
  · exact .built text fun _ listed => by cases listed

/-- Choices are composed, and so are their members. -/
theorem choice_composed : (Schema.deferred "choice").Throughout counts Body.Composed := by
  have united : Body.union [.built (.ofKind .number), .built (.ofKind .string)] (.number 0) =
      .ok choice := rfl
  exact choice_throughout ⟨choice, [], .union united, rfl⟩ ⟨_, [], .plain .number rfl, rfl⟩
    ⟨_, [], .plain .string rfl, rfl⟩

/-- Amounts are composed, and so are their members. -/
theorem amount_composed : (Schema.built amount).Throughout counts Body.Composed := by
  have united : Body.union [.built (.ofKind .string), .deferred "choice"] (.string "") =
      .ok amount := rfl
  refine .built ⟨amount, [], .union united, rfl⟩ fun step taken inner handed => ?_
  obtain rfl := List.mem_singleton.mp taken
  rcases List.mem_pair.mp handed with rfl | rfl
  · exact .built ⟨_, [], .plain .string rfl, rfl⟩ fun _ listed => by cases listed
  · exact choice_composed

/-- Choices come to an end. -/
theorem choice_unfolds : (Schema.deferred "choice").Unfolds counts 3 := by
  refine .deferred rfl (.built fun step taken inner handed => ?_)
  obtain rfl := List.mem_singleton.mp taken
  rcases List.mem_pair.mp handed with rfl | rfl <;>
    exact .built fun _ listed => by cases listed

/-- No union on the way through a choice has a member that is deferred. -/
theorem choice_sound : ¬ (Schema.deferred "choice").HoldsNestedUnion counts := by
  rintro ⟨body, schemas, name, target, reached, listed, among, _⟩
  have ready : (Schema.deferred "choice").Throughout counts fun body =>
      ∀ schemas, .members schemas ∈ body.steps → .deferred name ∉ schemas := by
    refine choice_throughout (fun schemas listed among => ?_) (fun _ listed => ?_)
      fun _ listed => ?_
    · obtain rfl := Step.members.inj (List.mem_singleton.mp listed)
      rcases List.mem_pair.mp among with same | same <;> cases same
    · cases listed
    · cases listed
  exact ready body reached schemas listed among

/-- Taken leniently, a truth value is refused for an amount because choices are unions, while every
one is left as it is for a choice. -/
theorem Schema.validateAt_lenient_refuses_amount :
    (Schema.built amount).Throughout counts Body.Composed ∧
      (Schema.deferred "choice").Throughout counts Body.Composed ∧
      (Scope.new .lenient).mode = .lenient ∧
      ((Schema.built amount).validateAt counts 3 (some (.bool true)) .root
        (.new .lenient)).fault? = some (.located .root .nestedUnion) ∧
      (Schema.built amount).HoldsNestedUnion counts ∧
      ¬ (Schema.deferred "choice").HoldsNestedUnion counts ∧
      (Schema.deferred "choice").Unfolds counts 3 ∧
      ∃ outcome, ((Schema.deferred "choice").validateAt counts 3 (some (.bool true)) .root
        (.new .lenient)).result? = some outcome :=
  ⟨amount_composed, choice_composed, rfl, rfl, ((validateAt_lenient_refuses counts 3 (.built amount)
    (some (.bool true)) .root (.new .lenient) amount_composed rfl).1 _ rfl).2.2, choice_sound,
    choice_unfolds, ((validateAt_lenient_refuses counts 3 (.deferred "choice") (some (.bool true))
    .root (.new .lenient) choice_composed rfl).2 choice_sound).2 choice_unfolds⟩

end Assay
