import Assay.Proofs.Extension

/-!
# What strict validation guarantees

Which values a schema describes is a recursion on the schema that looks at finished values only
(`Schema.Conforms`): their category, the sizes of containers, and their items and fields in turn. A
strict validation checks the type before the steps and takes the steps one after the other, so each
step is shown to assure something of the value that it leaves (`Step.Assures`), which the other
steps of a proper body cannot undo. What a strict validation accepts conforms, however deep deferred
schemas lead.
-/
namespace Assay

variable {κ : Type}

namespace Schema

/-- Undefined input stays undefined under the schema. -/
def LeavesUndefined (host : Host κ) (schema : Schema κ) : Prop :=
  ∃ body, schema.ResolvesTo host body ∧ body.settings.default = .undefined ∧
    body.settings.required = false

/-- The value is one that the schema describes. -/
inductive Conforms (host : Host κ) : Schema κ → Value → Prop
  /-- A name describes what its definition does. -/
  | deferred {name : String} {target : Schema κ} {value : Value}
      (found : host.definitions name = .ok target) (conforms : Conforms host target value) :
      Conforms host (.deferred name) value
  /-- Null, where it is allowed. -/
  | null {body : Body κ} (nullable : body.settings.nullable = true) :
      Conforms host (.built body) .null
  /-- A text. -/
  | string {body : Body κ} (kind : body.settings.kind = .string) (text : String) :
      Conforms host (.built body) (.string text)
  /-- A finite number. -/
  | number {body : Body κ} {real : Float} (kind : body.settings.kind = .number)
      (finite : isFiniteNumber real = true) : Conforms host (.built body) (.number real)
  /-- A truth value. -/
  | boolean {body : Body κ} (kind : body.settings.kind = .boolean) (truth : Bool) :
      Conforms host (.built body) (.bool truth)
  /-- A date. -/
  | date {body : Body κ} (kind : body.settings.kind = .date) (instant : Instant) :
      Conforms host (.built body) (.date instant)
  /-- A function. -/
  | function {body : Body κ} (kind : body.settings.kind = .function) (callable : Function) :
      Conforms host (.built body) (.function callable)
  /-- An instance. -/
  | inst {body : Body κ} (kind : body.settings.kind = .inst) (cls : Class)
      (fields : List (String × Value)) : Conforms host (.built body) (.inst cls fields)
  /-- An array of an allowed size, each item of which the element schema describes. -/
  | array {body : Body κ} {items : List Value} (kind : body.settings.kind = .array)
      (sizes : ∀ rule, .check (.size .array rule) ∈ body.steps → rule.holds items.length = true)
      (each : ∀ schema, .elements schema ∈ body.steps → ∀ item ∈ items, Conforms host schema item) :
      Conforms host (.built body) (.array items)
  /-- A plain object of an allowed size, each value of which the value schema describes. -/
  | object {body : Body κ} {fields : List (String × Value)} (kind : body.settings.kind = .object)
      (sizes : ∀ rule, .check (.size .object rule) ∈ body.steps → rule.holds fields.length = true)
      (each : ∀ schema, .values schema ∈ body.steps →
        ∀ field ∈ fields, Conforms host schema field.2) :
      Conforms host (.built body) (.object fields)
  /-- An array with one item for each position, described by its schema or null where undefined
  input stays undefined. -/
  | tuple {body : Body κ} {schemas : List (Schema κ)} {items : List Value}
      (kind : body.settings.kind = .tuple) (listed : .positions schemas ∈ body.steps)
      (length : items.length = schemas.length)
      -- A premise stands for the other alternative, as the relation may not occur in a disjunction.
      (each : ∀ (place : Nat) (schema : Schema κ) (item : Value), schemas[place]? = some schema →
        items[place]? = some item → (item = .null → ¬ schema.LeavesUndefined host) →
        Conforms host schema item) : Conforms host (.built body) (.array items)
  /-- A plain object whose declared fields are described by their schemas, or absent where undefined
  input stays undefined, and which has no others if the shape is exact. -/
  | shape {body : Body κ} {declared : List (String × Schema κ)} {fields : List (String × Value)}
      (kind : body.settings.kind = .shape) (listed : .fields declared ∈ body.steps)
      (closed : body.settings.exact = true →
        ∀ key, fields.lookup key ≠ none → key ∈ declared.map Prod.fst)
      (complete : ∀ name schema, (name, schema) ∈ declared → fields.lookup name = none →
        schema.LeavesUndefined host)
      (each : ∀ name schema value, (name, schema) ∈ declared → fields.lookup name = some value →
        Conforms host schema value) : Conforms host (.built body) (.object fields)
  /-- An instance, which stays as it is: completed, its declared fields are described by their
  schemas. -/
  | shapedInst {body : Body κ} {declared : List (String × Schema κ)} {cls : Class}
      {fields : List (String × Value)} {completed : String → Value}
      (kind : body.settings.kind = .shape) (listed : .fields declared ∈ body.steps)
      (closed : body.settings.exact = true →
        ∀ key, fields.lookup key ≠ none → key ∈ declared.map Prod.fst)
      (extended : ∀ name ∈ declared.map Prod.fst, ∀ value, fields.lookup name = some value →
        value.ExtendsTo (completed name))
      (each : ∀ name schema, (name, schema) ∈ declared →
        (fields.lookup name = none → ¬ schema.LeavesUndefined host) →
        Conforms host schema (completed name)) : Conforms host (.built body) (.inst cls fields)
  /-- A value that one of the members describes. -/
  | union {body : Body κ} {schemas : List (Schema κ)} {schema : Schema κ} {value : Value}
      (kind : body.settings.kind = .union) (listed : .members schemas ∈ body.steps)
      (member : schema ∈ schemas) (defined : value ≠ .null)
      (conforms : Conforms host schema value) : Conforms host (.built body) value
  /-- Anything but null. -/
  | custom {body : Body κ} {value : Value} (kind : body.settings.kind = .custom)
      (defined : value ≠ .null) : Conforms host (.built body) value

/-- The outcome is a value that the schema describes, or undefined where that may be. -/
def Allows (host : Host κ) (schema : Schema κ) : Option Value → Prop
  | some value => schema.Conforms host value
  | none => schema.LeavesUndefined host

end Schema

/-- Strictly validated, the schema has no outcome that it does not allow. -/
def Members.Sound (members : Members κ) (host : Host κ) (schema : Schema κ) : Prop :=
  ∀ value path scope outcome, scope.isStrict = true →
    (members.validate schema value path scope).result? = some outcome → schema.Allows host outcome

namespace Step

/-- What a step sees to in the value that it leaves. -/
def Assures (host : Host κ) (settings : Settings κ) (value : Value) : Step κ → Prop
  | check (.size container rule) =>
    ∀ size, container.size? value = some size → rule.holds size = true
  | elements schema => ∀ items, value = .array items → ∀ item ∈ items, schema.Conforms host item
  | values schema =>
    ∀ fields, value = .object fields → ∀ field ∈ fields, schema.Conforms host field.2
  | fields declared => ∀ fields, value.fields? = some fields →
    (settings.exact = true → ∀ key, fields.lookup key ≠ none → key ∈ declared.map Prod.fst) ∧
    ∃ completed : String → Option Value,
      (∀ name schema, (name, schema) ∈ declared → schema.Allows host (completed name)) ∧
      (value = .object fields → ∀ name ∈ declared.map Prod.fst,
        completed name = fields.lookup name) ∧
      ∀ name ∈ declared.map Prod.fst, ∀ value, fields.lookup name = some value →
        ∃ result, completed name = some result ∧ value.ExtendsTo result
  | positions schemas => ∀ items, value = .array items → items.length = schemas.length ∧
    ∀ (place : Nat) schema item, schemas[place]? = some schema → items[place]? = some item →
      schema.Conforms host item ∨ item = .null ∧ schema.LeavesUndefined host
  | members schemas => ∃ schema ∈ schemas, schema.Conforms host value
  | _ => True

variable {host : Host κ} {members : Members κ} {settings : Settings κ} {path : Path}
  {scope : Scope} {value : Value} {replaced : Option Value}

/-- An accepted size is one that the rule allows. -/
theorem size_assures {container : Container} {rule : SizeRule}
    (accepted : ((check (.size container rule)).run host members settings value path
      scope).result? = some replaced) :
    (check (.size container rule)).Assures host settings (replaced.getD value) := by
  obtain ⟨allowed, rfl⟩ := run_check_accepted accepted
  intro size measured
  rw [Option.getD_none] at measured
  rw [Check.objection?, measured, Check.reasonUnless] at allowed
  simpa using allowed

/-- Accepted items are what the element schema describes. -/
theorem elements_assure {schema : Schema κ} (sound : members.Sound host schema)
    (keep : members.Keep) (strict : scope.isStrict = true)
    (accepted : ((elements schema).run host members settings value path scope).result? =
      some replaced) :
    (elements schema).Assures host settings (replaced.getD value) := by
  rcases run_elements_accepted accepted with ⟨items, results, rfl, validated, rfl⟩ | ⟨bare, rfl⟩
  · obtain ⟨length, each⟩ := Members.elements_accepted validated
    intro final same item member
    obtain rfl := Value.array.inj same
    obtain ⟨place, inside, found⟩ := List.getElem_of_mem member
    have given := List.getElem?_eq_getElem (length ▸ inside)
    obtain ⟨outcome, ended, stands⟩ := each place _ given
    obtain ⟨result, rfl, _⟩ := keep schema _ _ _ outcome strict ended
    rw [List.getElem?_eq_getElem inside, found] at stands
    obtain rfl := Option.some.inj stands
    exact sound _ _ _ _ strict ended
  · intro items same
    obtain rfl : value = .array items := same
    cases bare

/-- Accepted values are what the value schema describes. -/
theorem values_assure {schema : Schema κ} (sound : members.Sound host schema)
    (keep : members.Keep) (strict : scope.isStrict = true)
    (accepted : ((values schema).run host members settings value path scope).result? =
      some replaced) :
    (values schema).Assures host settings (replaced.getD value) := by
  rcases run_values_accepted accepted with ⟨entries, results, rfl, validated, rfl⟩ | ⟨bare, rfl⟩
  · intro fields same field member
    obtain rfl := Value.object.inj same
    obtain ⟨entry, _, _, outcome, ended, stands⟩ :=
      Entries.exists_left_of_forall₂ (Members.values_accepted validated) member
    obtain ⟨result, rfl, _⟩ := keep schema _ _ _ outcome strict ended
    rw [stands]
    exact sound _ _ _ _ strict ended
  · intro fields same
    obtain rfl : value = .object fields := same
    cases bare

/-- The result of a union is what one of its members describes. -/
theorem members_assure {schemas : List (Schema κ)}
    (sound : ∀ schema ∈ schemas, members.Sound host schema) (keep : members.Keep)
    (strict : scope.isStrict = true)
    (accepted : ((Step.members schemas).run host members settings value path scope).result? =
      some replaced) :
    (Step.members schemas).Assures host settings (replaced.getD value) := by
  rcases Members.firstOf_accepted accepted with
    ⟨_, lenient⟩ | ⟨schema, member, _, outcome, _, _, ended, rfl⟩
  · rw [strict] at lenient
    cases lenient
  · obtain ⟨result, rfl, _⟩ := keep schema value path scope outcome strict ended
    exact ⟨schema, member, sound schema member _ _ _ _ strict ended⟩

/-- Accepted fields are what the shape promises. -/
theorem fields_assure {declared : List (String × Schema κ)}
    (sound : ∀ field ∈ declared, members.Sound host field.2) (keep : members.Keep)
    (strict : scope.isStrict = true) (distinct : (declared.map Prod.fst).Nodup)
    (accepted : ((fields declared).run host members settings value path scope).result? =
      some replaced) :
    (fields declared).Assures host settings (replaced.getD value) := by
  rcases run_fields_accepted accepted with
    ⟨input, built, given, closed, validated, rfl⟩ | ⟨bare, rfl⟩
  · have inner : (scope.withCurrent value).isStrict = true := strict
    have outcome := fun name schema (listed : (name, schema) ∈ declared) =>
      fields_distinct distinct validated listed
    have allowed : ∀ name schema, (name, schema) ∈ declared → schema.Allows host
        ((Entries.overlay built (undeclared declared input)).lookup name) :=
      fun name schema listed => sound _ listed _ _ _ _ inner (outcome name schema listed)
    cases value with
    | object entries =>
      obtain rfl := Option.some.inj given
      intro fields same
      obtain rfl := Option.some.inj same
      refine ⟨fun exact key present => ?_, fun name => _, allowed, fun _ _ _ => rfl,
        fun _ _ value found => ⟨value, found, .refl value⟩⟩
      by_contra other
      obtain ⟨_, _, lookup⟩ := fields_outcomes validated
      rw [lookup key, if_neg other] at present
      exact other (undeclared_eq_nil.mp (closed exact strict) key present)
    | inst cls entries =>
      obtain rfl := Option.some.inj given
      intro fields same
      obtain rfl := Option.some.inj same
      refine ⟨fun exact key present => undeclared_eq_nil.mp (closed exact strict) key present,
        fun name => _, allowed, nofun, fun name declares value found => ?_⟩
      obtain ⟨⟨label, schema⟩, listed, same⟩ := List.mem_map.mp declares
      obtain rfl : label = name := same
      have validated := outcome label schema listed
      rw [found] at validated
      exact keep schema value _ _ _ inner validated
    | _ => cases given
  · intro fields given
    rw [Option.getD_none, bare] at given
    cases given

/-- Accepted positions are what the tuple promises. -/
theorem positions_assure {schemas : List (Schema κ)}
    (sound : ∀ schema ∈ schemas, members.Sound host schema) (strict : scope.isStrict = true)
    (accepted : ((positions schemas).run host members settings value path scope).result? =
      some replaced) :
    (positions schemas).Assures host settings (replaced.getD value) := by
  rcases run_positions_accepted accepted with ⟨items, results, rfl, _, validated, rfl⟩ | ⟨bare, rfl⟩
  · obtain ⟨length, each⟩ := Members.positions_accepted validated
    intro final same
    obtain rfl := Value.array.inj same
    refine ⟨length, fun place schema item listed found => ?_⟩
    obtain ⟨outcome, ended, stands⟩ := each place schema listed
    have allowed := sound schema (List.mem_of_getElem? listed) _ _ _ _ strict ended
    rw [found] at stands
    obtain rfl := Option.some.inj stands
    cases outcome with
    | none => exact .inr ⟨rfl, allowed⟩
    | some result => exact .inl allowed
  · intro items same
    obtain rfl : value = .array items := same
    cases bare

/-- An accepted step assures what it is for. -/
theorem run_assures {step : Step κ} (sound : ∀ schema ∈ step.schemas, members.Sound host schema)
    (keep : members.Keep) (strict : scope.isStrict = true)
    (distinct : ∀ declared, step = .fields declared → (declared.map Prod.fst).Nodup)
    (accepted : (step.run host members settings value path scope).result? = some replaced) :
    step.Assures host settings (replaced.getD value) := by
  cases step with
  | check condition =>
    cases condition with
    | size container rule => exact size_assures accepted
    | _ => trivial
  | keys schema => trivial
  | elements schema => exact elements_assure (sound schema List.mem_cons_self) keep strict accepted
  | values schema => exact values_assure (sound schema List.mem_cons_self) keep strict accepted
  | fields declared =>
    have own := fun field (listed : field ∈ declared) => sound field.2 (List.mem_map_of_mem listed)
    exact fields_assure own keep strict (distinct declared rfl) accepted
  | positions schemas => exact positions_assure sound strict accepted
  | members schemas => exact members_assure sound keep strict accepted

/-- A step for a kind of containers does not change their size. -/
theorem run_size {step : Step κ} {container : Container} (own : step.suits container.kind = true)
    (accepted : (step.run host members settings value path scope).result? = some replaced) :
    container.size? (replaced.getD value) = container.size? value := by
  cases role : step.role with
  | check =>
    obtain rfl := run_role_check_accepted role accepted
    rfl
  | rebuild =>
    cases step with
    | check => cases role
    | keys => cases role
    | elements schema =>
      rcases run_elements_accepted accepted with ⟨items, results, rfl, validated, rfl⟩ | ⟨_, rfl⟩
      · cases container with
        | array => exact congrArg some (Members.elements_accepted validated).1
        | object => rfl
      · rfl
    | values schema =>
      rcases run_values_accepted accepted with ⟨entries, results, rfl, validated, rfl⟩ | ⟨_, rfl⟩
      · cases container with
        | array => rfl
        | object => exact congrArg some (Members.values_accepted validated).length_eq.symm
      · rfl
    | _ => cases container <;> cases own

/-- What a step of a proper body assures, every step of it preserves. -/
theorem assures_preserved {body : Body κ} (proper : body.Proper)
    (sound : ∀ step ∈ body.steps, ∀ schema ∈ step.schemas, members.Sound host schema)
    (keep : members.Keep) (strict : scope.isStrict = true) {step other : Step κ}
    (listed : step ∈ body.steps) (taken : other ∈ body.steps)
    (assured : step.Assures host body.settings value)
    (accepted : (other.run host members body.settings value path scope).result? = some replaced) :
    step.Assures host body.settings (replaced.getD value) := by
  cases role : other.role with
  | check =>
    obtain rfl := run_role_check_accepted role accepted
    exact assured
  | rebuild =>
    cases also : step.role with
    | rebuild =>
      -- Two steps that can rebuild are one, which has just assured what it is for once more.
      obtain rfl := proper.unique taken listed role also
      exact run_assures (sound other taken) keep strict
        (fun declared same => proper.distinct declared (same ▸ taken)) accepted
    | check =>
      cases step with
      | check condition =>
        cases condition with
        | size container rule =>
          -- Sizes are checked for one kind, and no step for that kind changes them.
          intro size measured
          have kind := eq_of_beq (proper.built.suits _ listed)
          have own := proper.built.suits other taken
          rw [kind] at own
          rw [run_size own accepted] at measured
          exact assured size measured
        | _ => trivial
      | keys => trivial
      | _ => cases also

/-- Texts and numbers are only checked. -/
theorem role_of_suits {kind : Kind} {step : Step κ} (scalar : kind = .string ∨ kind = .number)
    (own : step.suits kind = true) : step.role = .check := by
  rcases scalar with rfl | rfl <;> cases step <;> first | rfl | cases own

end Step

namespace Body

variable {host : Host κ} {members : Members κ} {body : Body κ} {path : Path} {scope : Scope}
  {value : Value}

/-- The steps of a proper body leave a value in which each of them assures what it is for. -/
theorem takeSteps_assure {final : Value} (proper : body.Proper)
    (sound : ∀ step ∈ body.steps, ∀ schema ∈ step.schemas, members.Sound host schema)
    (keep : members.Keep) (strict : scope.isStrict = true)
    (accepted : (takeSteps host members body.settings path scope body.steps value).result? =
      some final) :
    ∀ step ∈ body.steps, step.Assures host body.settings final := by
  intro step listed
  cases substance : step.isAboutContent with
  | true =>
    -- A check that may be left out promises nothing.
    cases step with
    | check condition =>
      cases condition with
      | size container rule => cases substance
      | _ => trivial
    | _ => cases substance
  | false =>
    refine takeSteps_establishes (fun value => step.Assures host body.settings value) listed
      (.inl strict) (fun before skipped => ?_) (fun before replaced ran => ?_)
      (fun other taken before replaced assured ran => ?_) accepted
    · rw [Step.isAboutContent_of_isSkipped skipped] at substance
      cases substance
    · exact Step.run_assures (sound step listed) keep strict
        (fun declared same => proper.distinct declared (same ▸ listed)) ran
    · exact Step.assures_preserved proper sound keep strict listed taken assured ran

/-- Steps that only check leave the value as it is. -/
theorem takeSteps_unchanged {settings : Settings κ} {steps : List (Step κ)} {final : Value}
    (checks : ∀ step ∈ steps, step.role = .check)
    (accepted : (takeSteps host members settings path scope steps value).result? = some final) :
    final = value := by
  refine takeSteps_preserves (· = value) (fun step listed before replaced same ran => ?_) rfl
    accepted
  obtain rfl := Step.run_role_check_accepted (checks step listed) ran
  exact same

/-- The steps of a proper body of texts or numbers leave the value as it is. -/
theorem takeSteps_scalar {final : Value} (proper : body.Proper)
    (scalar : body.settings.kind = .string ∨ body.settings.kind = .number)
    (accepted : (takeSteps host members body.settings path scope body.steps value).result? =
      some final) : final = value :=
  takeSteps_unchanged
    (fun step listed => Step.role_of_suits scalar (proper.built.suits step listed)) accepted

/-- A shape whose fields are assured describes the plain object. -/
theorem shape_conforms {declared : List (String × Schema κ)} {fields : List (String × Value)}
    (kind : body.settings.kind = .shape) (listed : .fields declared ∈ body.steps)
    (assured : (Step.fields declared).Assures host body.settings (.object fields)) :
    (Schema.built body).Conforms host (.object fields) := by
  obtain ⟨closed, completed, allowed, same, _⟩ := assured fields rfl
  refine .shape kind listed closed (fun name schema member absent => ?_)
    fun name schema value member found => ?_
  · have outcome := allowed name schema member
    rw [same rfl name (List.mem_map_of_mem member), absent] at outcome
    exact outcome
  · have outcome := allowed name schema member
    rw [same rfl name (List.mem_map_of_mem member), found] at outcome
    exact outcome

/-- A shape whose fields are assured describes the instance. -/
theorem shapedInst_conforms {declared : List (String × Schema κ)} {cls : Class}
    {fields : List (String × Value)} (kind : body.settings.kind = .shape)
    (listed : .fields declared ∈ body.steps)
    (assured : (Step.fields declared).Assures host body.settings (.inst cls fields)) :
    (Schema.built body).Conforms host (.inst cls fields) := by
  obtain ⟨closed, completed, allowed, _, extended⟩ := assured fields rfl
  refine .shapedInst kind listed closed (fun name declares value found => ?_)
    (show ∀ name schema, (name, schema) ∈ declared →
      (fields.lookup name = none → ¬ schema.LeavesUndefined host) →
      schema.Conforms host ((completed name).getD .null) from
    fun name schema member defined => ?_)
  · obtain ⟨result, same, extension⟩ := extended name declares value found
    rw [same]
    exact extension
  · have outcome := allowed name schema member
    cases ended : completed name with
    | some result =>
      rw [ended] at outcome
      exact outcome
    | none =>
      rw [ended] at outcome
      refine absurd outcome (defined ?_)
      cases found : fields.lookup name with
      | none => rfl
      | some value =>
        obtain ⟨result, same, _⟩ := extended name (List.mem_map_of_mem member) value found
        rw [ended] at same
        cases same

/-- A tuple whose positions are assured describes the array. -/
theorem tuple_conforms {schemas : List (Schema κ)} {items : List Value}
    (kind : body.settings.kind = .tuple) (listed : .positions schemas ∈ body.steps)
    (assured : (Step.positions schemas).Assures host body.settings (.array items)) :
    (Schema.built body).Conforms host (.array items) := by
  obtain ⟨length, each⟩ := assured items rfl
  refine .tuple kind listed length fun place schema item known found kept => ?_
  rcases each place schema item known found with conforms | ⟨null, leaves⟩
  · exact conforms
  · exact absurd leaves (kept null)

/-- What a proper body makes of a value that is not null conforms. -/
theorem process_conforms {result : Value} (proper : body.Proper)
    (sound : ∀ step ∈ body.steps, ∀ schema ∈ step.schemas, members.Sound host schema)
    (keep : members.Keep) (strict : scope.isStrict = true) (defined : value ≠ .null)
    (accepted : (body.process host members value path scope).result? = some result) :
    (Schema.built body).Conforms host result := by
  obtain ⟨checked, final, taken, rfl⟩ := process_accepted accepted
  have passed := checked strict
  have extended := takeSteps_extend keep strict taken
  have assured := takeSteps_assure proper sound keep strict taken
  cases kind : body.settings.kind with
  | string =>
    rw [kind] at passed
    obtain rfl := takeSteps_scalar proper (.inl kind) taken
    cases final <;> try cases passed
    exact .string kind _
  | number =>
    rw [kind] at passed
    obtain rfl := takeSteps_scalar proper (.inr kind) taken
    cases final <;> try cases passed
    exact .number kind passed
  | boolean =>
    rw [kind] at passed
    cases value <;> try cases passed
    cases extended with
    | bool => exact .boolean kind _
    | date denoted => cases denoted
  | date =>
    rw [kind] at passed
    obtain ⟨instant, denoted⟩ := Option.isSome_iff_exists.mp passed
    rw [Kind.cast, extended.toInstant? denoted]
    exact .date kind instant
  | array =>
    rw [kind] at passed
    cases value <;> try cases passed
    obtain ⟨results, rfl⟩ := extended.of_array
    exact .array kind (fun rule listed => assured _ listed _ rfl)
      fun schema listed => assured _ listed results rfl
  | object =>
    rw [kind] at passed
    cases value <;> try cases passed
    obtain ⟨results, rfl⟩ := extended.of_object
    exact .object kind (fun rule listed => assured _ listed _ rfl)
      fun schema listed => assured _ listed results rfl
  | shape =>
    rw [kind] at passed
    obtain ⟨declared, listed⟩ := proper.built.fields kind
    cases value <;> try cases passed
    · obtain ⟨results, rfl⟩ := extended.of_object
      exact shape_conforms kind listed (assured _ listed)
    · cases extended with
      | inst => exact shapedInst_conforms kind listed (assured _ listed)
      | date denoted => cases denoted
  | tuple =>
    rw [kind] at passed
    obtain ⟨schemas, listed⟩ := proper.built.positions kind
    cases value <;> try cases passed
    obtain ⟨results, rfl⟩ := extended.of_array
    exact tuple_conforms kind listed (assured _ listed)
  | union =>
    obtain ⟨schemas, listed⟩ := proper.built.members kind
    obtain ⟨schema, member, conforms⟩ := assured _ listed
    exact .union kind listed member (extended.ne_null defined) conforms
  | inst =>
    rw [kind] at passed
    cases value <;> try cases passed
    cases extended with
    | inst => exact .inst kind _ _
    | date denoted => cases denoted
  | function =>
    rw [kind] at passed
    cases value <;> try cases passed
    cases extended with
    | function => exact .function kind _
    | date denoted => cases denoted
  | custom => exact .custom kind (extended.ne_null defined)

/-- A proper body has no outcome that it does not allow. -/
theorem validate_allowed {given outcome : Option Value} (proper : body.Proper)
    (sound : ∀ step ∈ body.steps, ∀ schema ∈ step.schemas, members.Sound host schema)
    (keep : members.Keep) (strict : scope.isStrict = true)
    (accepted : (body.validate host members given path scope).result? = some outcome) :
    (Schema.built body).Allows host outcome := by
  rcases validate_accepted accepted with ⟨received, rfl⟩ | ⟨_, allowed, rfl⟩ |
    ⟨value, result, _, defined, processed, rfl⟩
  · obtain ⟨stays, required, _⟩ := receive_accepted received
    obtain ⟨missing, unset⟩ := Option.or_eq_none_iff.mp stays.symm
    refine ⟨body, .built body, ?_, ?_⟩
    · cases default : body.settings.default with
      | undefined => rfl
      | _ =>
        rw [default] at unset
        cases unset
    · by_contra needed
      have lenient := required missing ((Bool.not_eq_false _).mp needed)
      rw [strict] at lenient
      cases lenient
  · exact .null (allowed strict)
  · exact process_conforms proper sound keep strict defined processed

end Body

namespace Schema

variable {host : Host κ}

/-- At every depth, a schema that is proper throughout has no outcome that it does not allow. -/
theorem membersAt_sound {schema : Schema κ} (proper : schema.Throughout host Body.Proper)
    (depth : Nat) : (membersAt host depth).Sound host schema := by
  induction depth generalizing schema with
  | zero => exact fun _ _ _ _ _ accepted => by cases accepted
  | succ depth ih =>
    intro value path scope outcome strict accepted
    cases schema with
    | built body =>
      exact Body.validate_allowed proper.here
        (fun step taken inner handed => ih (proper.member taken handed)) (membersAt_keep host depth)
        strict accepted
    | deferred name =>
      simp only [membersAt, validateAt, Run.result?_bind, Option.bind_eq_some_iff] at accepted
      obtain ⟨target, found, validated⟩ := accepted
      have defined := Run.result?_ofMisuse_eq_some.mp found
      have allowed := ih (proper.target defined) value path scope outcome strict validated
      cases outcome with
      | some result => exact .deferred defined allowed
      | none =>
        obtain ⟨body, resolved, rest⟩ := allowed
        exact ⟨body, .deferred defined resolved, rest⟩

/-- What strict validation accepts conforms to the schema. -/
theorem validateAt_conforms (host : Host κ) (depth : Nat) (schema : Schema κ)
    (value : Option Value) (path : Path) (scope : Scope)
    (proper : schema.Throughout host Body.Proper) (strict : scope.mode = .strict) (result : Value)
    (accepted : (schema.validateAt host depth value path scope).result? = some (some result)) :
    schema.Conforms host result := by
  have strictly : scope.isStrict = true := Scope.isStrict_of_mode strict
  have sound : (membersAt host depth).Sound host schema := membersAt_sound proper depth
  exact sound value path scope (some result) strictly accepted

end Schema

/-- Events are proper throughout. -/
theorem event_proper : (Schema.built event).Throughout events Body.Proper := by
  have plain : ∀ kind : Kind, kind.isPlain = true → (Body.ofKind kind : Body Unit).Proper :=
    fun kind free => Body.Started.proper (.plain kind free) fun _ listed => by cases listed
  refine event_throughout (Body.Started.proper (.shape _) fun declared listed => ?_)
    (plain .date rfl) ?noted ?placed (plain .number rfl) (plain .string rfl) ?tagged
  · obtain rfl := Step.fields.inj (List.mem_singleton.mp listed)
    decide
  case noted =>
    exact ⟨⟨.ofKind .string, [.computedDefault ()], .plain .string rfl, by decide, rfl⟩, by decide,
      fun _ listed => by cases listed⟩
  case placed =>
    have united : Body.union [.built (.ofKind .number), .built (.ofKind .string)] (.number 0) =
        .ok place := rfl
    exact Body.Started.proper (.union united) fun _ listed => by
      cases List.mem_singleton.mp listed
  case tagged =>
    have built : tags.Built :=
      ⟨.ofKind .array, [.size .array .notEmpty, .elements (.built (.ofKind .string))],
        .plain .array rfl, by decide, rfl⟩
    refine ⟨built, by decide, fun declared listed => ?_⟩
    rcases List.mem_pair.mp listed with same | same <;> cases same

/-- An accepted event conforms. -/
theorem Schema.validateAt_conforms_event :
    (Schema.built event).Throughout events Body.Proper ∧ (Scope.new .strict).mode = .strict ∧
      ((Schema.built event).validateAt events 4 (some eventGiven) .root (.new .strict)).result? =
        some (some eventFound) ∧ (Schema.built event).Conforms events eventFound :=
  ⟨event_proper, rfl, rfl, validateAt_conforms events 4 (.built event) (some eventGiven) .root
    (.new .strict) event_proper rfl eventFound rfl⟩

end Assay
