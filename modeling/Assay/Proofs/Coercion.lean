import Assay.Proofs.Idempotence
import Assay.Proofs.Tolerance

/-!
# Coercing a result again

A lenient validation leaves its own results as they are, although it coerces texts, cuts tuples off,
puts null at missing positions and lets values of other kinds pass (`Schema.validateAt_coerced`). The
checks are not made, so all that counts is the one step of a body that can rebuild, and the coercion
at the end, which such a step leaves nothing to do (`Kind.cast_of_rebuild`). A union chooses by
category: the member that it offers a value keeps the category (`Body.validate_category`), and
without unions inside unions no member refuses the value, so the same member is chosen for the
result (`Members.firstOf_coerced`).
-/
namespace Assay

variable {κ : Type}

/-- No union of the body has a member that stands for a union. -/
def Body.Unnested (host : Host κ) (body : Body κ) : Prop :=
  ∀ schemas, .members schemas ∈ body.steps → ∀ schema ∈ schemas, ∀ target,
    schema.ResolvesTo host target → target.settings.kind ≠ .union

namespace Kind

/-- Coercion to a kind keeps the category of a value that the kind accepts. -/
theorem cast_category {kind : Kind} {value : Value} (accepts : kind.accepts value.category = true) :
    (kind.cast value).category = value.category := by
  cases kind <;> cases value <;> cases accepts <;> rfl

/-- A kind that has a use for a step that can rebuild coerces nothing. -/
theorem cast_of_rebuild {kind : Kind} {step : Step κ} (own : step.suits kind = true)
    (role : step.role = .rebuild) (value : Value) : kind.cast value = value := by
  cases step with
  | check => cases role
  | keys => cases role
  | _ =>
    obtain rfl := eq_of_beq own
    rfl

end Kind

/-- Only a default that is none leaves undefined input undefined. -/
theorem Default.resolve_eq_none {host : Host κ} {default : Default κ} {path : Path} {scope : Scope}
    (missing : default.resolve host path scope = none) : default = .undefined := by
  cases default with
  | undefined => rfl
  | _ => cases missing

namespace Members

variable {members : Members κ} {schema : Schema κ} {path : Path} {scope : Scope}

/-- In the lenient mode the schema refuses nothing, leaves its outcomes as they are, and keeps the
category of what a union offers it. -/
structure Coerces (members : Members κ) (schema : Schema κ) : Prop where
  /-- It refuses nothing. -/
  tolerates : members.Tolerates (fun _ => False) True schema
  /-- It leaves its outcomes as they are. -/
  settles : members.Settles false schema
  /-- It keeps the category of a value that its kind accepts. -/
  category : ∀ kind value path scope result, (members.kind schema).result? = some kind →
    kind.accepts value.category = true →
      (members.validate schema (some value) path scope).result? = some (some result) →
        result.category = value.category

/-- A schema that refuses nothing is passed over for its category only, so a union passes it over
for all values of the category. -/
theorem Coerces.passesOver {value other : Value} {beside : Scope} (coerces : members.Coerces schema)
    (lenient : scope.isStrict = false) (same : other.category = value.category)
    (passed : members.PassesOver value path scope schema) :
    members.PassesOver other path beside schema := by
  obtain ⟨kind, found, union, refused⟩ := passed
  refine ⟨kind, found, union, fun accepts => ?_⟩
  obtain ⟨fault, rejected⟩ := refused (same ▸ accepts)
  exact ((coerces.tolerates (some value) path scope lenient).fault rejected).elim

/-- A union of schemas that coerce leaves what it makes of a value as it is. -/
theorem firstOf_coerced {names : List String} {value : Value} {schemas : List (Schema κ)}
    {causes : List Fault} {replaced : Option Value}
    (coerces : ∀ schema ∈ schemas, members.Coerces schema) (lenient : scope.isStrict = false)
    (accepted : (members.firstOf names value path scope schemas causes).result? = some replaced)
    (current : Option Value) :
    (members.firstOf names (replaced.getD value) path { scope with current := current } schemas
      causes).result? = some replaced := by
  cases replaced with
  | none =>
    obtain ⟨_, passed⟩ := firstOf_leaves.mp accepted
    refine firstOf_leaves.mpr ⟨lenient, fun schema listed => ?_⟩
    exact (coerces schema listed).passesOver lenient rfl (passed schema listed)
  | some result =>
    obtain ⟨before, schema, after, rfl, passed, kind, outcome, found, union, offered, validated,
      same⟩ := exists_taken accepted
    have own := coerces schema (List.mem_append_right _ List.mem_cons_self)
    obtain ⟨made, rfl⟩ := own.settles.defined _ _ _ _ lenient validated
    obtain rfl : result = made := same
    have kept := own.category kind value path scope result found offered validated
    have again := own.settles.again _ _ _ _ lenient validated current
    refine firstOf_of_taken (fun other earlier => ?_)
      ⟨kind, some result, found, union, by rw [← offered, ← kept], again, rfl⟩ causes
    exact (coerces other (List.mem_append_left _ earlier)).passesOver lenient kept
      (passed other earlier)

end Members

namespace Step

variable {host : Host κ} {members : Members κ} {settings : Settings κ} {step : Step κ} {path : Path}
  {scope : Scope} {value : Value} {replaced : Option Value}

/-- Unless it is that of a union, a step keeps the category of the value. -/
theorem run_category (single : ∀ schemas, step ≠ .members schemas)
    (accepted : (step.run host members settings value path scope).result? = some replaced) :
    (replaced.getD value).category = value.category := by
  cases step with
  | check => rw [(run_check_accepted accepted).2, Option.getD_none]
  | keys => rw [run_keys_accepted accepted, Option.getD_none]
  | elements =>
    rcases run_elements_accepted accepted with ⟨_, _, rfl, _, rfl⟩ | ⟨_, rfl⟩ <;> rfl
  | values =>
    rcases run_values_accepted accepted with ⟨_, _, rfl, _, rfl⟩ | ⟨_, rfl⟩ <;> rfl
  | fields =>
    rcases run_fields_accepted accepted with ⟨_, _, _, _, _, rfl⟩ | ⟨_, rfl⟩
    · cases value <;> rfl
    · rfl
  | positions =>
    rcases run_positions_accepted accepted with ⟨_, _, rfl, _, _, rfl⟩ | ⟨_, rfl⟩ <;> rfl
  | members schemas => exact absurd rfl (single schemas)

/-- A step that can rebuild settles what it leaves in the lenient mode, where its schemas coerce and
no field is declared twice. -/
theorem run_coerced (role : step.role = .rebuild)
    (distinct : ∀ declared, step = .fields declared → (declared.map Prod.fst).Nodup)
    (coerces : ∀ schema ∈ step.schemas, members.Coerces schema) (lenient : scope.isStrict = false)
    (accepted : (step.run host members settings value path scope).result? = some replaced) :
    step.Settled host members settings path scope (replaced.getD value) := by
  have settles : ∀ schema ∈ step.schemas, members.Settles false schema :=
    fun schema handed => (coerces schema handed).settles
  cases step with
  | check => cases role
  | keys => cases role
  | elements => exact elements_settle (settles _ List.mem_cons_self) lenient accepted
  | values => exact values_settle (settles _ List.mem_cons_self) lenient accepted
  | fields declared =>
    exact fields_settle (fun field listed => settles field.2 (List.mem_map_of_mem listed)) lenient
      (distinct declared rfl) accepted
  | positions => exact positions_settle settles lenient accepted
  | members schemas =>
    refine fun current => .inr ⟨replaced, ?_, by cases replaced <;> rfl⟩
    exact Members.firstOf_coerced coerces lenient accepted current

end Step

namespace Body

variable {host : Host κ} {members : Members κ} {body : Body κ} {path : Path} {scope : Scope}

/-- A proper body keeps the category of a value that its kind accepts. -/
theorem validate_category {value result : Value} (proper : body.Proper)
    (accepts : body.settings.kind.accepts value.category = true)
    (accepted : (body.validate host members (some value) path scope).result? =
      some (some result)) : result.category = value.category := by
  rcases validate_accepted accepted with ⟨_, missing⟩ | ⟨received, _, same⟩ |
    ⟨given, made, received, _, processed, same⟩
  · cases missing
  · obtain rfl := Option.some.inj same
    obtain rfl := Option.some.inj (receive_accepted received).1
    rfl
  · obtain rfl := Option.some.inj same
    obtain rfl := Option.some.inj (receive_accepted received).1
    obtain ⟨_, final, taken, rfl⟩ := process_accepted processed
    have kept : final.category = given.category := by
      refine takeSteps_preserves (fun made => made.category = given.category)
        (fun step listed before replaced held ran => ?_) rfl taken
      refine (Step.run_category ?_ ran).trans held
      -- A union accepts no category, so the body is none.
      rintro schemas rfl
      have union := eq_of_beq (proper.built.suits _ listed)
      rw [union] at accepts
      cases accepts
    rw [Kind.cast_category (kept ▸ accepts), kept]

/-- What a proper body makes of a value in the lenient mode stays as it is when it is processed again
in any object. -/
theorem Proper.process_coerced {value result : Value} (proper : body.Proper)
    (coerces : ∀ step ∈ body.steps, ∀ schema ∈ step.schemas, members.Coerces schema)
    (lenient : scope.isStrict = false)
    (accepted : (body.process host members value path scope).result? = some result)
    (current : Option Value) :
    (body.process host members result path { scope with current := current }).result? =
      some result := by
  obtain ⟨_, final, taken, rfl⟩ := process_accepted accepted
  have settled : ∀ step ∈ body.steps, scope.isStrict = true ∨ step.role = .rebuild →
      step.Settled host members body.settings path scope (body.settings.kind.cast final) := by
    intro step listed due
    have role : step.role = .rebuild := due.resolve_left (by rw [lenient]; decide)
    have establishes (before : Value) (replaced : Option Value)
        (ran : (step.run host members body.settings before path scope).result? = some replaced) :
        step.Settled host members body.settings path scope (replaced.getD before) :=
      Step.run_coerced role (fun declared same => proper.distinct declared (same ▸ listed))
        (coerces step listed) lenient ran
    rw [Kind.cast_of_rebuild (proper.built.suits step listed) role]
    refine takeSteps_establishes (fun made => step.Settled host members body.settings path scope
      made) listed (.inr role) (fun before skipped _ => .inl skipped) establishes
      (fun other also before replaced held ran => ?_) taken
    cases own : other.role with
    | check =>
      obtain rfl := Step.run_role_check_accepted own ran
      exact held
    | rebuild =>
      obtain rfl := proper.unique also listed own role
      exact establishes before replaced ran
  have inside : ({ scope with current := current } : Scope).isStrict = false := lenient
  rw [process, inside, Bool.false_and, if_neg Bool.false_ne_true, Run.result?_bind,
    takeSteps_settled settled current, Option.bind_some, Run.result?_pure, Kind.cast_cast]

/-- In the lenient mode a value is left as it is when it is null or processing leaves it as it is. -/
theorem validate_of_lenient {value : Value} (lenient : scope.isStrict = false)
    (processed : value ≠ .null →
      (body.process host members value path scope).result? = some value) :
    (body.validate host members (some value) path scope).result? = some (some value) :=
  validate_of_processed (receive_usable (.inr lenient) value)
    (fun _ => by rw [lenient, Bool.not_false, Bool.or_true]) processed

/-- In the lenient mode a proper body leaves its outcomes as they are, in any object. -/
theorem Proper.validate_coerced {given outcome : Option Value} (proper : body.Proper)
    (coerces : ∀ step ∈ body.steps, ∀ schema ∈ step.schemas, members.Coerces schema)
    (lenient : scope.isStrict = false)
    (accepted : (body.validate host members given path scope).result? = some outcome)
    (current : Option Value) :
    (body.validate host members outcome path { scope with current := current }).result? =
      some outcome := by
  have inside : ({ scope with current := current } : Scope).isStrict = false := lenient
  rcases validate_accepted accepted with ⟨received, rfl⟩ | ⟨_, _, rfl⟩ |
    ⟨value, made, _, _, processed, rfl⟩
  · -- Nothing was given, and there is no default for it.
    have missing : given.or (body.settings.default.resolve host path scope) = none :=
      (receive_accepted received).1.symm
    have undefined := Default.resolve_eq_none (Option.or_eq_none_iff.mp missing).2
    rw [validate, receive, inside, Bool.and_false, if_neg Bool.false_ne_true, Run.result?_bind,
      Run.result?_pure, undefined]
    rfl
  · exact validate_of_lenient inside fun defined => absurd rfl defined
  · exact validate_of_lenient inside fun _ =>
      proper.process_coerced coerces lenient processed current

end Body

namespace Schema

variable {host : Host κ}

/-- A schema that stands for a proper body keeps the category of a value that its kind accepts. -/
theorem validateAt_category {schema : Schema κ} {depth : Nat} {kind : Kind} {value result : Value}
    {path : Path} {scope : Scope} (proper : schema.Throughout host Body.Proper)
    (found : (schema.resolvedKind host depth).result? = some kind)
    (accepts : kind.accepts value.category = true)
    (accepted : (schema.validateAt host depth (some value) path scope).result? =
      some (some result)) : result.category = value.category := by
  obtain ⟨body, resolved, rfl⟩ := resolvedKind_accepted found
  obtain ⟨other, inner, _, same, validated⟩ := validateAt_accepted accepted
  obtain rfl := same.unique resolved
  exact Body.validate_category (proper other resolved.reaches) accepts validated

/-- To every depth, a schema that is proper throughout and has no unions inside unions coerces. -/
theorem membersAt_coerces {schema : Schema κ} (proper : schema.Throughout host Body.Proper)
    (unnested : schema.Throughout host (Body.Unnested host)) (depth : Nat) :
    (membersAt host depth).Coerces schema := by
  induction depth using Nat.strongRecOn generalizing schema with
  | ind depth ih =>
    have below {body : Body κ} {inner : Nat} (less : inner < depth)
        (stands : schema.ResolvesTo host body) : ∀ step ∈ body.steps, ∀ member ∈ step.schemas,
          (membersAt host inner).Coerces member := fun step listed member handed =>
      ih inner less ((proper.resolved stands).member listed handed)
        ((unnested.resolved stands).member listed handed)
    have tolerates : (membersAt host depth).Tolerates (fun _ => False) True schema :=
      membersAt_tolerates (fun body reached schemas listed member among target resolved union _ =>
        unnested body reached schemas listed member among target resolved union) (.inl trivial)
    refine ⟨tolerates, ⟨fun value path scope outcome _ accepted => ?_,
      fun value path scope outcome lenient accepted current => ?_,
      fun path scope lenient accepted current => ?_⟩,
      fun kind value path scope result found accepts accepted =>
        validateAt_category proper found accepts accepted⟩
    · obtain ⟨body, _, _, _, validated⟩ := validateAt_accepted accepted
      exact Body.validate_defined validated
    · obtain ⟨body, inner, less, stands, same⟩ := validateAt_resolved accepted
      refine (same _ _ _).trans ?_
      exact (proper body stands.reaches).validate_coerced (below less stands) lenient
        ((same value path scope).symm.trans accepted) current
    · obtain ⟨body, inner, less, stands, same⟩ := validateAt_resolved accepted
      refine (same _ _ _).trans ?_
      exact Body.validate_of_lenient lenient fun defined => absurd rfl defined

/-- Lenient validation leaves its own results as they are, wherever bodies are proper and no union
has a member that stands for one. -/
theorem validateAt_coerced (host : Host κ) (depth : Nat) (schema : Schema κ) (value : Option Value)
    (path : Path) (scope : Scope) (proper : schema.Throughout host Body.Proper)
    (unnested : schema.Throughout host (Body.Unnested host)) (lenient : scope.mode = .lenient)
    (result : Value)
    (accepted : (schema.validateAt host depth value path scope).result? = some (some result)) :
    (schema.validateAt host depth (some result) path scope).result? = some (some result) := by
  have leniently : scope.isStrict = false := Scope.isStrict_of_lenient lenient
  have settles := (membersAt_coerces proper unnested depth).settles
  exact settles.again value path scope (some result) leniently accepted scope.current

end Schema

/-- The place of an event is its only union, of numbers and texts. -/
theorem event_unnested : (Schema.built event).Throughout events (Body.Unnested events) := by
  have plain : ∀ kind : Kind, (Body.ofKind kind : Body Unit).Unnested events := by
    intro kind schemas listed
    cases listed
  refine event_throughout (fun _ listed => ?_) (plain .date) (plain .string)
    (fun schemas listed schema among target stands => ?_) (plain .number) (plain .string)
    fun _ listed => ?_
  · cases List.mem_singleton.mp listed
  · obtain rfl := Step.members.inj (List.mem_singleton.mp listed)
    rcases List.mem_pair.mp among with rfl | rfl <;> cases stands <;> decide
  · rcases List.mem_pair.mp listed with same | same <;> cases same

/-- An event with the wrong things in its fields: a number for a moment, which is one, a truth value
for a place, which is none, and a number among its tags, which becomes a text. -/
def eventOdd : Value :=
  .object [("at", .number 1000), ("place", .bool true), ("tags", .array [.number 2])]

/-- The odd event as lenient validation leaves it. -/
def eventCoerced : Value :=
  .object [("at", .date ⟨1, 0⟩), ("note", .string "unknown"), ("place", .bool true),
    ("tags", .array [.string "2"])]

/-- The odd event is coerced once; coerced again it stays as it is. -/
theorem Schema.validateAt_coerced_event :
    (Schema.built event).Throughout events Body.Proper ∧
      (Schema.built event).Throughout events (Body.Unnested events) ∧
      (Scope.new .lenient).mode = .lenient ∧
      ((Schema.built event).validateAt events 4 (some eventOdd) .root (.new .lenient)).result? =
        some (some eventCoerced) ∧
      ((Schema.built event).validateAt events 4 (some eventCoerced) .root
        (.new .lenient)).result? = some (some eventCoerced) :=
  ⟨event_proper, event_unnested, rfl, rfl, validateAt_coerced events 4 (.built event)
    (some eventOdd) .root (.new .lenient) event_proper event_unnested rfl eventCoerced rfl⟩

end Assay
