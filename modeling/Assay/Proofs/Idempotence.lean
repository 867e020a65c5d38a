import Assay.Proofs.Settlement

/-!
# Validating a result again

A strict validation leaves its own results as they are (`Schema.validateAt_settles`), wherever the
bodies on the way are stable (`Body.Stable`) and each union keeps its members apart. The steps of a
stable body settle what they leave, the other steps keep the value settled
(`Body.Stable.settled_preserved`), and so does the coercion at the end (`Body.Stable.settled_cast`).
-/
namespace Assay

variable {κ : Type}

/-- The body is proper, its input may be defined, and its checks are stable. -/
structure Body.Stable (body : Body κ) : Prop where
  /-- It is proper. -/
  proper : body.Proper
  /-- Its input may be defined. -/
  usable : body.settings.never = false
  /-- Its checks look at nothing but the value. -/
  checks : ∀ condition, .check condition ∈ body.steps → condition.isStable = true

/-- What has been coerced to a kind stays as it is. -/
theorem Kind.cast_cast (kind : Kind) (value : Value) :
    kind.cast (kind.cast value) = kind.cast value := by
  cases kind with
  | string => cases value <;> rfl
  | number =>
    cases value with
    | string text => cases found : Numeral.read? (trimmed text) <;> simp [cast, found]
    | _ => rfl
  | boolean =>
    cases value with
    | string text =>
      by_cases affirmed : text = "true"
      · simp [cast, affirmed]
      · by_cases denied : text = "false"
        · simp [cast, denied]
        · simp [cast, affirmed, denied]
    | _ => rfl
  | date =>
    cases denoted : value.toInstant? with
    | some instant =>
      have same : (Value.date instant).toInstant? = some instant := rfl
      simp [cast, denoted, same]
    | none => simp [cast, denoted]
  | _ => rfl

/-- What a body with stable members is validated by. -/
structure Members.Settle (members : Members κ) (host : Host κ) (body : Body κ) : Prop where
  /-- Kinds are those of the bodies that schemas stand for. -/
  kinds : members.KindsResolve host
  /-- What defined input supplies is kept. -/
  keep : members.Keep
  /-- The schemas that the steps hand values on to are stable. -/
  stable : ∀ step ∈ body.steps, ∀ schema ∈ step.schemas, members.Stable host schema

namespace Body

variable {host : Host κ} {members : Members κ} {body : Body κ} {path : Path} {scope : Scope}
  {value : Value} {replaced : Option Value}

/-- The steps of a stable body settle what they leave. -/
theorem Stable.run_settles {step : Step κ} (stable : body.Stable) (apart : body.MembersApart host)
    (settle : members.Settle host body) (strict : scope.isStrict = true)
    (listed : step ∈ body.steps)
    (accepted : (step.run host members body.settings value path scope).result? = some replaced) :
    step.Settled host members body.settings path scope (replaced.getD value) :=
  Step.run_settles settle.kinds settle.keep
    (fun condition same => stable.checks condition (same ▸ listed))
    (fun _ same => stable.proper.built.text_of_keys (same ▸ listed))
    (fun declared same => stable.proper.distinct declared (same ▸ listed))
    (fun schemas same => apart schemas (same ▸ listed)) (settle.stable step listed) strict accepted

/-- A value for which a step of a stable body is settled keeps it so through every step. -/
theorem Stable.settled_preserved {step other : Step κ} (stable : body.Stable)
    (apart : body.MembersApart host) (settle : members.Settle host body)
    (strict : scope.isStrict = true) (listed : step ∈ body.steps) (taken : other ∈ body.steps)
    (settled : step.Settled host members body.settings path scope value)
    (accepted : (other.run host members body.settings value path scope).result? = some replaced) :
    step.Settled host members body.settings path scope (replaced.getD value) := by
  have own := stable.proper.built.suits other taken
  have suits := stable.proper.built.suits step listed
  cases role : other.role with
  | check =>
    obtain rfl := Step.run_role_check_accepted role accepted
    exact settled
  | rebuild =>
    cases also : step.role with
    | rebuild =>
      -- Two steps that can rebuild are one, which settles what it leaves once more.
      obtain rfl := stable.proper.unique taken listed role also
      exact stable.run_settles apart settle strict taken accepted
    | check =>
      cases step with
      | check condition =>
        have other : ¬ (body.settings.kind = .string ∨ body.settings.kind = .number) := by
          intro scalar
          rw [Step.role_of_suits scalar own] at role
          cases role
        have substance := stable.proper.built.substance other _ listed
        refine settled.check_extends (stable.checks condition listed) substance
          (Step.run_extends settle.keep strict accepted) fun container rule same => ?_
        subst same
        have kind : body.settings.kind = container.kind := eq_of_beq suits
        rw [kind] at own
        exact Step.run_size own accepted
      | keys schema =>
        have kind : body.settings.kind = .object := eq_of_beq suits
        rw [kind] at own
        cases other with
        | values =>
          rcases Step.run_values_accepted accepted with
            ⟨entries, results, rfl, validated, rfl⟩ | ⟨_, rfl⟩
          · have each := Members.values_accepted validated
            have same : Entries.keys entries = Entries.keys results := Entries.names_of_forall₂ each
            exact settled.keys_kept same.symm
          · exact settled
        | check => cases role
        | keys => cases role
        | _ => cases own
      | _ => cases also

/-- Dates apart, what the steps of a proper body leave of a value that passes the type check needs
no coercion. -/
theorem takeSteps_cast {final : Value} (proper : body.Proper) (keep : members.Keep)
    (strict : scope.isStrict = true) (dated : body.settings.kind ≠ .date)
    (checked : body.settings.kind.check value = true)
    (taken : (takeSteps host members body.settings path scope body.steps value).result? =
      some final) : body.settings.kind.cast final = final := by
  have extended := takeSteps_extend keep strict taken
  cases kind : body.settings.kind with
  | string =>
    rw [kind] at checked
    obtain rfl := takeSteps_scalar proper (.inl kind) taken
    cases final with
    | string => rfl
    | _ => cases checked
  | number =>
    rw [kind] at checked
    obtain rfl := takeSteps_scalar proper (.inr kind) taken
    cases final with
    | number => rfl
    | _ => cases checked
  | boolean =>
    rw [kind] at checked
    cases value with
    | bool =>
      cases extended with
      | bool => rfl
      | date denoted => cases denoted
    | _ => cases checked
  | date => exact absurd kind dated
  | _ => rfl

/-- The coercion at the end keeps a step settled. -/
theorem Stable.settled_cast {step : Step κ} {final : Value} (stable : body.Stable)
    (keep : members.Keep) (strict : scope.isStrict = true) (listed : step ∈ body.steps)
    (checked : body.settings.kind.check value = true)
    (taken : (takeSteps host members body.settings path scope body.steps value).result? =
      some final)
    (settled : step.Settled host members body.settings path scope final) :
    step.Settled host members body.settings path scope (body.settings.kind.cast final) := by
  by_cases dated : body.settings.kind = .date
  · -- Dates are only checked, by what the date in the place of a text or number passes as well.
    have suits := stable.proper.built.suits step listed
    rw [dated] at suits checked ⊢
    cases step with
    | check condition =>
      have substance := stable.proper.built.substance (by rw [dated]; decide) _ listed
      obtain ⟨instant, denoted⟩ := Option.isSome_iff_exists.mp checked
      have later := (takeSteps_extend keep strict taken).toInstant? denoted
      have coerced : Kind.date.cast final = .date instant := by
        rw [Kind.cast, later]
        rfl
      rw [coerced]
      refine settled.check_extends (stable.checks condition listed) substance (.date later)
        fun container rule same => ?_
      subst same
      cases container <;> cases suits
    | _ => cases suits
  · rw [takeSteps_cast stable.proper keep strict dated checked taken]
    exact settled

/-- Steps that are settled for a value, as far as they are due, leave it as it is. -/
theorem takeSteps_settled {settings : Settings κ} {steps : List (Step κ)}
    (settled : ∀ step ∈ steps, scope.isStrict = true ∨ step.role = .rebuild →
      step.Settled host members settings path scope value)
    (current : Option Value) :
    (takeSteps host members settings path { scope with current := current } steps value).result? =
      some value := by
  induction steps with
  | nil => rfl
  | cons step rest ih =>
    obtain ⟨head, tail⟩ := List.forall_mem_cons.mp settled
    rw [takeSteps]
    split
    · exact ih tail
    · rename_i taken
      rcases head (Step.due_of_taken taken) current with skipped | ⟨replaced, ran, same⟩
      · rw [skipped, Bool.or_true] at taken
        exact absurd rfl taken
      · rw [Run.result?_bind, ran, Option.bind_some, same]
        exact ih tail

/-- What a stable body makes of a value that is not null is not null either, and processed again in
any object it stays as it is. -/
theorem Stable.process_settles {result : Value} (stable : body.Stable)
    (apart : body.MembersApart host) (settle : members.Settle host body)
    (strict : scope.isStrict = true) (defined : value ≠ .null)
    (accepted : (body.process host members value path scope).result? = some result) :
    result ≠ .null ∧ ∀ current, (body.process host members result path
      { scope with current := current }).result? = some result := by
  have conforms := process_conforms stable.proper
    (fun step listed schema handed => (settle.stable step listed schema handed).sound) settle.keep
    strict defined accepted
  obtain ⟨checked, final, taken, rfl⟩ := process_accepted accepted
  have extended := Kind.cast_extends (checked strict) (takeSteps_extend settle.keep strict taken)
  have remains := extended.ne_null defined
  have settled : ∀ step ∈ body.steps, step.Settled host members body.settings path scope
      (body.settings.kind.cast final) := by
    intro step listed
    refine stable.settled_cast settle.keep strict listed (checked strict) taken ?_
    refine takeSteps_establishes (fun value => step.Settled host members body.settings path scope
      value) listed (.inl strict) (fun before skipped _ => .inl skipped)
      (fun before replaced ran => stable.run_settles apart settle strict listed ran)
      (fun other also before replaced held ran => ?_) taken
    exact stable.settled_preserved apart settle strict listed also held ran
  refine ⟨remains, fun current => ?_⟩
  rw [process, conforms.check (.built body) remains, Bool.not_true, Bool.and_false,
    if_neg Bool.false_ne_true, Run.result?_bind,
    takeSteps_settled (fun step listed _ => settled step listed) current,
    Option.bind_some, Run.result?_pure, Kind.cast_cast]

/-- Input that may be defined is received as it is, and so is all input where validation is
lenient. -/
theorem receive_usable {settings : Settings κ}
    (usable : settings.never = false ∨ scope.isStrict = false) (value : Value) :
    (receive host settings (some value) path scope).result? = some (some value) := by
  have allowed : (settings.never && scope.isStrict) = false := by
    rcases usable with usable | lenient
    · rw [usable, Bool.false_and]
    · rw [lenient, Bool.and_false]
  cases noticed : settings.deprecated <;> simp [receive, noticed, allowed]

/-- A stable body leaves its results as they are, in any object. -/
theorem Stable.validate_settles {given : Option Value} {result : Value} (stable : body.Stable)
    (apart : body.MembersApart host) (settle : members.Settle host body)
    (strict : scope.isStrict = true)
    (accepted : (body.validate host members given path scope).result? = some (some result))
    (current : Option Value) :
    (body.validate host members (some result) path { scope with current := current }).result? =
      some (some result) := by
  have received : (receive host body.settings (some result) path
      { scope with current := current }).result? = some (some result) :=
    receive_usable (.inl stable.usable) result
  rcases validate_accepted accepted with ⟨_, missing⟩ | ⟨_, nullable, same⟩ |
    ⟨value, made, _, defined, processed, same⟩
  · cases missing
  · obtain rfl := Option.some.inj same
    exact validate_of_processed received
      (fun _ => by rw [nullable strict, Bool.true_or]) fun remains => absurd rfl remains
  · obtain rfl := Option.some.inj same
    obtain ⟨remains, again⟩ := stable.process_settles apart settle strict defined processed
    exact validate_of_processed received (fun null => absurd null remains) fun _ => again current

end Body

namespace Schema

variable {host : Host κ}

/-- A schema that is stable throughout leaves nothing undefined. -/
theorem supplied_of_stable {schema : Schema κ} (stable : schema.Throughout host Body.Stable) :
    ¬ schema.LeavesUndefined host := by
  rintro ⟨body, resolved, undefined, _⟩
  have own := stable body resolved.reaches
  exact own.proper.built.default_ne_undefined own.usable undefined

/-- At every depth, a schema that is stable throughout and whose unions keep their members apart is
stable. -/
theorem membersAt_stable {schema : Schema κ} (stable : schema.Throughout host Body.Stable)
    (apart : schema.Throughout host (Body.MembersApart host)) (depth : Nat) :
    (membersAt host depth).Stable host schema := by
  have proper : schema.Throughout host Body.Proper :=
    fun body reached => (stable body reached).proper
  induction depth generalizing schema with
  | zero =>
    exact ⟨membersAt_sound proper 0, supplied_of_stable stable,
      fun _ _ _ _ _ accepted => by cases accepted⟩
  | succ depth ih =>
    refine ⟨membersAt_sound proper (depth + 1), supplied_of_stable stable,
      fun value path scope result strict accepted current => ?_⟩
    cases schema with
    | built body =>
      have settle : (membersAt host depth).Settle host body :=
        ⟨fun _ _ found => resolvedKind_accepted found, membersAt_keep host depth,
          fun step taken inner handed => ih (stable.member taken handed)
            (apart.member taken handed) (proper.member taken handed)⟩
      exact stable.here.validate_settles apart.here settle strict accepted current
    | deferred name =>
      simp only [membersAt, validateAt, Run.result?_bind, Option.bind_eq_some_iff] at accepted ⊢
      obtain ⟨target, found, validated⟩ := accepted
      have defined := Run.result?_ofMisuse_eq_some.mp found
      have inner := ih (stable.target defined) (apart.target defined) (proper.target defined)
      exact ⟨target, found, inner.settles value path scope result strict validated current⟩

/-- Strict validation leaves its own results as they are, wherever checks look at nothing but the
value and the members of each union are offered different categories. -/
theorem validateAt_settles (host : Host κ) (depth : Nat) (schema : Schema κ)
    (value : Option Value) (path : Path) (scope : Scope)
    (stable : schema.Throughout host Body.Stable)
    (apart : schema.Throughout host (Body.MembersApart host)) (strict : scope.mode = .strict)
    (result : Value)
    (accepted : (schema.validateAt host depth value path scope).result? = some (some result)) :
    (schema.validateAt host depth (some result) path scope).result? = some (some result) := by
  have strictly : scope.isStrict = true := Scope.isStrict_of_mode strict
  have settles := (membersAt_stable stable apart depth).settles
  exact settles value path scope result strictly accepted scope.current

end Schema

/-- Events are stable throughout. -/
theorem event_stable : (Schema.built event).Throughout events Body.Stable := by
  have usable : (Schema.built event).Throughout events fun body => body.settings.never = false :=
    event_throughout rfl rfl rfl rfl rfl rfl rfl
  have checks : (Schema.built event).Throughout events fun body =>
      ∀ condition, .check condition ∈ body.steps → condition.isStable = true := by
    refine event_throughout (fun _ listed => ?_) nofun nofun (fun _ listed => ?_) nofun nofun
      fun condition listed => ?_
    · cases List.mem_singleton.mp listed
    · cases List.mem_singleton.mp listed
    · rcases List.mem_pair.mp listed with same | same
      · obtain rfl := Step.check.inj same
        rfl
      · cases same
  exact fun body reached => ⟨event_proper body reached, usable body reached, checks body reached⟩

/-- An accepted event is accepted again as it is, its date no longer a text and its note given. -/
theorem Schema.validateAt_settles_event :
    (Schema.built event).Throughout events Body.Stable ∧
      (Schema.built event).Throughout events (Body.MembersApart events) ∧
      (Scope.new .strict).mode = .strict ∧
      ((Schema.built event).validateAt events 4 (some eventGiven) .root (.new .strict)).result? =
        some (some eventFound) ∧
      ((Schema.built event).validateAt events 4 (some eventFound) .root (.new .strict)).result? =
        some (some eventFound) :=
  ⟨event_stable, event_apart, rfl, rfl, validateAt_settles events 4 (.built event)
    (some eventGiven) .root (.new .strict) event_stable event_apart rfl eventFound rfl⟩

end Assay
