import Assay.Proofs.Acceptance

/-!
# Lenient validation of what is valid

Lenient validation agrees with strict validation on input that the latter accepts, as long as
nothing but the mode could tell them apart: the members of each union are offered different
categories, so that a refusal never sends a value on to another member, and no computed default
looks at the mode. Each part of a strict validation then refines, as a run, the same part of the
lenient one.
-/
namespace Assay

variable {κ : Type}

/-- The same surroundings, with nothing checked. -/
def Scope.lenient (scope : Scope) : Scope := { scope with mode := .lenient }

/-- Lenient surroundings are not strict. -/
@[simp] theorem Scope.isStrict_lenient (scope : Scope) : scope.lenient.isStrict = false := rfl

/-- No category of values is offered to both schemas. -/
def Schema.Apart (host : Host κ) (first second : Schema κ) : Prop :=
  ∀ one other, first.ResolvesTo host one → second.ResolvesTo host other → ∀ category,
    ¬ (one.settings.kind.accepts category = true ∧ other.settings.kind.accepts category = true)

/-- No two members of a union of the body are offered the same category. -/
def Body.MembersApart (host : Host κ) (body : Body κ) : Prop :=
  ∀ schemas, .members schemas ∈ body.steps → schemas.Pairwise (Schema.Apart host)

/-- The default of the body, if it is computed, is the same in every mode. -/
def Body.DefaultIgnoresMode (host : Host κ) (body : Body κ) : Prop :=
  ∀ name, body.settings.default = .computed name → ∀ path (scope : Scope) mode,
    host.compute name path { scope with mode := mode } = host.compute name path scope

namespace Members

variable {members : Members κ} {schema : Schema κ} {path : Path} {scope : Scope}

/-- What the schema accepts strictly it accepts leniently, with the same result. -/
def Trust (members : Members κ) (schema : Schema κ) : Prop :=
  ∀ value path scope, scope.isStrict = true →
    (members.validate schema value path scope).Refines
      (members.validate schema value path scope.lenient)

/-- Kinds are those of the bodies that schemas stand for. -/
def KindsResolve (members : Members κ) (host : Host κ) : Prop :=
  ∀ schema kind, (members.kind schema).result? = some kind →
    ∃ body, schema.ResolvesTo host body ∧ body.settings.kind = kind

/-- Items accepted strictly are accepted leniently. -/
theorem elements_lenient (trust : members.Trust schema) (strict : scope.isStrict = true)
    (index : Nat) (items : List Value) :
    (members.elements schema path scope index items).Refines
      (members.elements schema path scope.lenient index items) := by
  induction items generalizing index with
  | nil => exact .refl _
  | cons item rest ih =>
    exact (trust (some item) _ scope strict).bind fun _ => (ih (index + 1)).bind fun _ => .refl _

/-- Values accepted strictly are accepted leniently. -/
theorem values_lenient (trust : members.Trust schema) (strict : scope.isStrict = true)
    (entries : List (String × Value)) :
    (members.values schema path scope entries).Refines
      (members.values schema path scope.lenient entries) := by
  induction entries with
  | nil => exact .refl _
  | cons entry rest ih =>
    exact (trust (some entry.2) _ scope strict).bind fun _ => ih.bind fun _ => .refl _

/-- Fields accepted strictly are accepted leniently. -/
theorem fields_lenient {declared : List (String × Schema κ)}
    (trust : ∀ field ∈ declared, members.Trust field.2) (strict : scope.isStrict = true)
    (input output : List (String × Value)) :
    (members.fields input path scope declared output).Refines
      (members.fields input path scope.lenient declared output) := by
  induction declared generalizing output with
  | nil => exact .refl _
  | cons field rest ih =>
    exact (trust field List.mem_cons_self _ _ scope strict).bind fun _ =>
      ih (fun other member => trust other (List.mem_cons_of_mem field member)) _

/-- Positions accepted strictly are accepted leniently. -/
theorem positions_lenient {schemas : List (Schema κ)}
    (trust : ∀ schema ∈ schemas, members.Trust schema) (strict : scope.isStrict = true)
    (index : Nat) (items : List Value) :
    (members.positions path scope index schemas items).Refines
      (members.positions path scope.lenient index schemas items) := by
  induction schemas generalizing index items with
  | nil => exact .refl _
  | cons schema rest ih =>
    exact (trust schema List.mem_cons_self _ _ scope strict).bind fun _ =>
      (ih (fun other member => trust other (List.mem_cons_of_mem schema member)) _ _).bind
        fun _ => .refl _

/-- Where one schema is offered a value, no member apart from it accepts the value strictly. -/
theorem firstOf_apart {host : Host κ} {names : List String} {value : Value} {kind : Kind}
    {others : List (Schema κ)} (kinds : members.KindsResolve host)
    (apart : ∀ other ∈ others, schema.Apart host other) (strict : scope.isStrict = true)
    (found : (members.kind schema).result? = some kind)
    (offered : kind.accepts value.category = true) (causes : List Fault) :
    (members.firstOf names value path scope others causes).result? = none := by
  cases chosen : (members.firstOf names value path scope others causes).result? with
  | none => rfl
  | some outcome =>
    rcases firstOf_accepted chosen with
      ⟨_, lenient⟩ | ⟨other, member, second, _, resolved, alike, _, _⟩
    · rw [strict] at lenient
      cases lenient
    · obtain ⟨one, stands, rfl⟩ := kinds schema kind found
      obtain ⟨two, also, rfl⟩ := kinds other second resolved
      have conflict := apart other member one two stands also value.category
      exact absurd ⟨offered, alike⟩ conflict

/-- A union of members that are apart accepts leniently what it accepts strictly: a member that
refuses the value is the only one it is offered to. -/
theorem firstOf_lenient {host : Host κ} {names : List String} {value : Value}
    {schemas : List (Schema κ)} (kinds : members.KindsResolve host)
    (apart : schemas.Pairwise (Schema.Apart host))
    (trust : ∀ schema ∈ schemas, members.Trust schema) (strict : scope.isStrict = true)
    (causes : List Fault) :
    (members.firstOf names value path scope schemas causes).Refines
      (members.firstOf names value path scope.lenient schemas causes) := by
  induction schemas generalizing causes with
  | nil =>
    rw [firstOf, if_pos strict]
    exact .of_none rfl
  | cons schema rest ih =>
    obtain ⟨others, later⟩ := List.pairwise_cons.mp apart
    intro outcome accepted
    rw [firstOf, Run.result?_bind, Option.bind_eq_some_iff] at accepted ⊢
    obtain ⟨kind, found, tried⟩ := accepted
    refine ⟨kind, found, ?_⟩
    by_cases union : kind = .union
    · rw [if_pos union] at tried
      cases tried
    · rw [if_neg union] at tried ⊢
      cases offered : kind.accepts value.category with
      | false =>
        rw [offered, Bool.not_false, if_pos rfl] at tried
        rw [Bool.not_false, if_pos rfl]
        exact ih later (fun other member => trust other (List.mem_cons_of_mem schema member))
          causes outcome tried
      | true =>
        rw [offered, Bool.not_true, if_neg Bool.false_ne_true, Run.result?_bind,
          Option.bind_eq_some_iff] at tried
        rw [Bool.not_true, if_neg Bool.false_ne_true, Run.result?_bind, Option.bind_eq_some_iff]
        obtain ⟨attempted, ended, chosen⟩ := tried
        cases attempted with
        | ok result =>
          have validated := Run.result?_attempt_ok.mp ended
          exact ⟨.ok result, Run.result?_attempt_ok.mpr
            (trust schema List.mem_cons_self _ _ scope strict result validated), chosen⟩
        | error fault =>
          -- The value goes on to members apart from this one, which refuse it.
          rw [Run.result?_bind, Run.result?_note, Option.bind_some,
            firstOf_apart kinds others strict found offered] at chosen
          cases chosen

end Members

namespace Step

variable {host : Host κ} {members : Members κ} {settings : Settings κ} {path : Path}
  {scope : Scope}

/-- A step that can rebuild accepts leniently what it accepts strictly. -/
theorem run_lenient {step : Step κ} (kinds : members.KindsResolve host)
    (apart : ∀ schemas, step = .members schemas → schemas.Pairwise (Schema.Apart host))
    (trust : ∀ schema ∈ step.schemas, members.Trust schema) (strict : scope.isStrict = true)
    (rebuilds : step.role = .rebuild) (value : Value) :
    (step.run host members settings value path scope).Refines
      (step.run host members settings value path scope.lenient) := by
  cases step with
  | check condition => cases rebuilds
  | keys schema => cases rebuilds
  | elements schema =>
    cases value with
    | array items =>
      exact (Members.elements_lenient (trust schema List.mem_cons_self) strict 0 items).bind
        fun _ => .refl _
    | _ => exact .refl _
  | values schema =>
    cases value with
    | object entries =>
      exact (Members.values_lenient (trust schema List.mem_cons_self) strict entries).bind
        fun _ => .refl _
    | _ => exact .refl _
  | fields declared =>
    rw [run, run, runFields, runFields]
    cases given : value.fields? with
    | none => exact .refl _
    | some input =>
      dsimp only
      split
      · exact .of_none rfl
      · rw [if_neg (by simp)]
        have inner : ∀ field ∈ declared, members.Trust field.2 :=
          fun field member => trust field.2 (List.mem_map_of_mem member)
        have inside : (scope.withCurrent value).isStrict = true := strict
        exact (Members.fields_lenient inner inside input []).bind fun _ => .refl _
  | positions schemas =>
    cases value with
    | array items =>
      rw [run, run, runPositions, runPositions]
      split
      · exact .of_none rfl
      · rw [if_neg (by simp)]
        exact (Members.positions_lenient trust strict 0 items).bind fun _ => .refl _
    | _ => exact .refl _
  | members schemas => exact Members.firstOf_lenient kinds (apart schemas rfl) trust strict []

/-- A step that can rebuild is never left out. -/
theorem isSkipped_of_rebuild {step : Step κ} (rebuilds : step.role = .rebuild)
    (settings : Settings κ) (value : Value) : step.isSkipped settings value = false := by
  cases step with
  | check condition => cases rebuilds
  | _ => rfl

end Step

namespace Body

variable {host : Host κ} {members : Members κ} {path : Path} {scope : Scope}

/-- Steps taken strictly to an end are taken leniently to the same one. -/
theorem takeSteps_lenient {settings : Settings κ} {steps : List (Step κ)}
    (kinds : members.KindsResolve host)
    (apart : ∀ schemas, .members schemas ∈ steps → schemas.Pairwise (Schema.Apart host))
    (trust : ∀ step ∈ steps, ∀ schema ∈ step.schemas, members.Trust schema)
    (strict : scope.isStrict = true) (value : Value) :
    (takeSteps host members settings path scope steps value).Refines
      (takeSteps host members settings path scope.lenient steps value) := by
  induction steps generalizing value with
  | nil => exact .refl _
  | cons step rest ih =>
    intro final accepted
    have later := ih (fun schemas member => apart schemas (List.mem_cons_of_mem step member))
      (fun other member => trust other (List.mem_cons_of_mem step member))
    cases role : step.role with
    | check =>
      have omitted : (!scope.lenient.isStrict && step.role == .check) = true := by
        rw [role]
        rfl
      rw [takeSteps, omitted, Bool.true_or, if_pos rfl]
      rcases takeSteps_cons_accepted accepted with ⟨_, remaining⟩ | ⟨replaced, ran, remaining⟩
      · exact later value final remaining
      · obtain rfl := Step.run_role_check_accepted role ran
        exact later value final remaining
    | rebuild =>
      have taken : ∀ scope : Scope, ((!scope.isStrict && step.role == .check) ||
          step.isSkipped settings value) = false := by
        intro scope
        rw [Step.isSkipped_of_rebuild role, role, Bool.or_false]
        exact Bool.and_false _
      rw [takeSteps, taken, if_neg Bool.false_ne_true] at accepted ⊢
      have own : ∀ schemas, step = .members schemas → schemas.Pairwise (Schema.Apart host) :=
        fun schemas same => apart schemas (same ▸ List.mem_cons_self)
      have ran : (step.run host members settings value path scope).Refines
          (step.run host members settings value path scope.lenient) :=
        Step.run_lenient kinds own (trust step List.mem_cons_self) strict role value
      exact ran.bind (fun _ => later _) final accepted

/-- What is received strictly is received leniently, where the default ignores the mode. -/
theorem receive_lenient {body : Body κ} (blind : body.DefaultIgnoresMode host)
    (value : Option Value) :
    (receive host body.settings value path scope).Refines
      (receive host body.settings value path scope.lenient) := by
  intro received accepted
  obtain ⟨rfl, _, _⟩ := receive_accepted accepted
  cases value with
  | none =>
    have same : body.settings.default.resolve host path scope.lenient =
        body.settings.default.resolve host path scope := by
      cases default : body.settings.default with
      | computed name => exact congrArg some (blind name default path scope .lenient)
      | _ => rfl
    rw [receive, if_neg (by simp),
      Run.result?_pure, same, Option.none_or]
  | some given => cases noticed : body.settings.deprecated <;>
      simp [receive, noticed]

/-- A body accepts leniently what it accepts strictly, with the same result. -/
theorem validate_lenient {body : Body κ} (kinds : members.KindsResolve host)
    (apart : body.MembersApart host) (blind : body.DefaultIgnoresMode host)
    (trust : ∀ step ∈ body.steps, ∀ schema ∈ step.schemas, members.Trust schema)
    (strict : scope.isStrict = true) (value : Option Value) :
    (body.validate host members value path scope).Refines
      (body.validate host members value path scope.lenient) := by
  refine (receive_lenient blind value).bind fun received => ?_
  cases received with
  | none => exact .refl _
  | some given =>
    dsimp only
    cases given.isNull with
    | true =>
      rw [if_pos rfl, if_pos rfl]
      split
      · rw [if_pos (by simp)]
        exact .refl _
      · exact .of_none rfl
    | false =>
      rw [if_neg Bool.false_ne_true, if_neg Bool.false_ne_true]
      refine Run.Refines.bind ?_ fun _ => .refl _
      rw [process, process]
      split
      · exact .of_none rfl
      · rw [if_neg (by simp)]
        exact (takeSteps_lenient kinds apart trust strict given).bind fun _ => .refl _

end Body

namespace Schema

variable {host : Host κ}

/-- At every depth, a schema whose unions keep their members apart and whose defaults ignore the
mode accepts leniently what it accepts strictly. -/
theorem membersAt_trust {schema : Schema κ}
    (apart : schema.Throughout host (Body.MembersApart host))
    (blind : schema.Throughout host (Body.DefaultIgnoresMode host)) (depth : Nat) :
    (membersAt host depth).Trust schema := by
  induction depth generalizing schema with
  | zero => exact fun _ _ _ _ => .of_none rfl
  | succ depth ih =>
    intro value path scope strict
    cases schema with
    | built body =>
      have kinds : (membersAt host depth).KindsResolve host :=
        fun _ _ accepted => resolvedKind_accepted accepted
      exact Body.validate_lenient kinds apart.here blind.here
        (fun _ taken _ handed => ih (apart.member taken handed) (blind.member taken handed))
        strict value
    | deferred name =>
      intro result accepted
      simp only [membersAt, validateAt, Run.result?_bind, Option.bind_eq_some_iff] at accepted ⊢
      obtain ⟨target, found, validated⟩ := accepted
      have defined := Run.result?_ofMisuse_eq_some.mp found
      exact ⟨target, found,
        ih (apart.target defined) (blind.target defined) value path scope strict result validated⟩

/-- Lenient validation agrees with strict validation on what the latter accepts, wherever the
members of each union are offered different categories and computed defaults ignore the mode. -/
theorem validateAt_lenient (host : Host κ) (depth : Nat) (schema : Schema κ) (value : Option Value)
    (path : Path) (scope : Scope) (apart : schema.Throughout host (Body.MembersApart host))
    (blind : schema.Throughout host (Body.DefaultIgnoresMode host)) (strict : scope.mode = .strict)
    (result : Option Value)
    (accepted : (schema.validateAt host depth value path scope).result? = some result) :
    (schema.validateAt host depth value path { scope with mode := .lenient }).result? =
      some result := by
  have strictly : scope.isStrict = true := Scope.isStrict_of_mode strict
  have trust : (membersAt host depth).Trust schema := membersAt_trust apart blind depth
  exact trust value path scope strictly result accepted

end Schema

/-- The places of events keep numbers and texts apart. -/
theorem event_apart : (Schema.built event).Throughout events (Body.MembersApart events) := by
  have plain : ∀ kind : Kind, (Body.ofKind kind : Body Unit).MembersApart events :=
    fun kind schemas listed => by cases listed
  refine event_throughout (fun _ listed => ?_) (plain .date) (fun _ listed => ?_)
    (fun schemas listed => ?_) (plain .number) (plain .string) (fun _ listed => ?_)
  · cases List.mem_singleton.mp listed
  · cases listed
  · obtain rfl := Step.members.inj (List.mem_singleton.mp listed)
    refine List.pairwise_pair.mpr fun one other first second category => ?_
    cases first
    cases second
    cases category <;> decide
  · rcases List.mem_pair.mp listed with same | same <;> cases same

/-- Notes of events do not look at the mode. -/
theorem event_ignoresMode :
    (Schema.built event).Throughout events (Body.DefaultIgnoresMode events) :=
  fun _ _ _ _ _ _ _ => rfl

/-- An accepted event is the same leniently. -/
theorem Schema.validateAt_lenient_event :
    (Schema.built event).Throughout events (Body.MembersApart events) ∧
      (Schema.built event).Throughout events (Body.DefaultIgnoresMode events) ∧
      (Scope.new .strict).mode = .strict ∧
      ((Schema.built event).validateAt events 4 (some eventGiven) .root (.new .strict)).result? =
        some (some eventFound) ∧
      ((Schema.built event).validateAt events 4 (some eventGiven) .root (.new .lenient)).result? =
        some (some eventFound) :=
  ⟨event_apart, event_ignoresMode, rfl, rfl, validateAt_lenient events 4 (.built event)
    (some eventGiven) .root (.new .strict) event_apart event_ignoresMode rfl (some eventFound) rfl⟩

end Assay
