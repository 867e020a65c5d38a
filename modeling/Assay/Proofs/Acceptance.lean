import Assay.Proofs.Entries
import Assay.Proofs.Reach

/-!
# Accepted validations

What each part of a validation did when it ended with a result: which members were validated, on
what and where, and how their results make up the result. A later statement about accepted values
cites these and opens no definition of the validation. The steps of a body are met by two rules:
what each step preserves is preserved by all of them (`takeSteps_preserves`), and what one of them
establishes and the others preserve holds in the end (`takeSteps_establishes`).
-/
namespace Assay

namespace Value

/-- A value is null exactly when it is the null value. -/
theorem isNull_iff {value : Value} : value.isNull = true ↔ value = .null := by
  cases value <;> simp [isNull]

/-- A value is defined content exactly when it is not the null value. -/
theorem isNull_eq_false_iff {value : Value} : value.isNull = false ↔ value ≠ .null := by
  rw [← Bool.not_eq_true, isNull_iff]

end Value

namespace Members

variable {κ : Type} {members : Members κ} {schema : Schema κ} {path : Path} {scope : Scope}

/-- Every item of an accepted array was validated at its index and its result stands there. -/
theorem elements_accepted {index : Nat} {items results : List Value}
    (accepted : (members.elements schema path scope index items).result? = some results) :
    results.length = items.length ∧ ∀ place item, items[place]? = some item →
      ∃ outcome,
        (members.validate schema (some item) (path.index (index + place)) scope).result? =
          some outcome ∧ results[place]? = some (outcome.getD item) := by
  induction items generalizing index results with
  | nil =>
    obtain rfl := Option.some.inj accepted
    exact ⟨rfl, fun _ _ found => by cases found⟩
  | cons first rest ih =>
    simp only [elements, Run.result?_bind, Option.bind_eq_some_iff] at accepted
    obtain ⟨outcome, validated, others, remaining, ended⟩ := accepted
    obtain rfl := Option.some.inj ended
    obtain ⟨length, each⟩ := ih remaining
    refine ⟨by rw [List.length_cons, List.length_cons, length], fun place item found => ?_⟩
    cases place with
    | zero =>
      obtain rfl := Option.some.inj found
      exact ⟨outcome, validated, rfl⟩
    | succ place =>
      have moved : index + (place + 1) = index + 1 + place := by omega
      rw [moved]
      exact each place item found

/-- Every value of an accepted object was validated at its key and its result stands there. -/
theorem values_accepted {entries results : List (String × Value)}
    (accepted : (members.values schema path scope entries).result? = some results) :
    List.Forall₂ (fun entry result => result.1 = entry.1 ∧ ∃ outcome,
      (members.validate schema (some entry.2) (path.key entry.1) scope).result? = some outcome ∧
        result.2 = outcome.getD entry.2) entries results := by
  induction entries generalizing results with
  | nil =>
    obtain rfl := Option.some.inj accepted
    exact .nil
  | cons entry rest ih =>
    obtain ⟨key, value⟩ := entry
    simp only [values, Run.result?_bind, Option.bind_eq_some_iff] at accepted
    obtain ⟨outcome, validated, others, remaining, ended⟩ := accepted
    obtain rfl := Option.some.inj ended
    exact .cons ⟨rfl, outcome, validated, rfl⟩ (ih remaining)

/-- Every declared field of an accepted object was validated at its name, and the outcomes are
collected in the order of declaration. -/
theorem fields_accepted {input output built : List (String × Value)}
    {declared : List (String × Schema κ)}
    (accepted : (members.fields input path scope declared output).result? = some built) :
    ∃ outcomes, List.Forall₂ (fun field outcome => outcome.1 = field.1 ∧
      (members.validate field.2 (input.lookup field.1) (path.key field.1) scope).result? =
        some outcome.2) declared outcomes ∧ built = Entries.collect outcomes output := by
  induction declared generalizing output with
  | nil =>
    obtain rfl := Option.some.inj accepted
    exact ⟨[], .nil, rfl⟩
  | cons field rest ih =>
    obtain ⟨name, schema⟩ := field
    simp only [fields, Run.result?_bind, Option.bind_eq_some_iff] at accepted
    obtain ⟨outcome, validated, remaining⟩ := accepted
    obtain ⟨outcomes, each, same⟩ := ih remaining
    refine ⟨(name, outcome) :: outcomes, .cons ⟨rfl, validated⟩ each, ?_⟩
    rw [same]
    cases outcome <;> rfl

/-- Every position of an accepted tuple was validated at its index, on the item there or on
undefined input, and its result stands there. -/
theorem positions_accepted {index : Nat} {schemas : List (Schema κ)} {items results : List Value}
    (accepted : (members.positions path scope index schemas items).result? = some results) :
    results.length = schemas.length ∧ ∀ place schema, schemas[place]? = some schema →
      ∃ outcome,
        (members.validate schema items[place]? (path.index (index + place)) scope).result? =
          some outcome ∧ results[place]? = some (outcome.getD .null) := by
  induction schemas generalizing index items results with
  | nil =>
    obtain rfl := Option.some.inj accepted
    exact ⟨rfl, fun _ _ found => by cases found⟩
  | cons first rest ih =>
    simp only [positions, Run.result?_bind, Option.bind_eq_some_iff] at accepted
    obtain ⟨outcome, validated, others, remaining, ended⟩ := accepted
    obtain rfl := Option.some.inj ended
    obtain ⟨length, each⟩ := ih remaining
    refine ⟨by rw [List.length_cons, List.length_cons, length], fun place schema found => ?_⟩
    cases place with
    | zero =>
      obtain rfl := Option.some.inj found
      rw [← List.head?_eq_getElem?]
      exact ⟨outcome, validated, rfl⟩
    | succ place =>
      obtain ⟨later, reached, stands⟩ := each place schema found
      rw [List.getElem?_tail] at reached
      have moved : index + (place + 1) = index + 1 + place := by omega
      exact ⟨later, by rw [moved]; exact reached, stands⟩

/-- A union that accepts a value took the result of a member whose kind accepts its category; only
lenient validation leaves the value as it is. -/
theorem firstOf_accepted {names : List String} {value : Value} {schemas : List (Schema κ)}
    {causes : List Fault} {outcome : Option Value}
    (accepted : (members.firstOf names value path scope schemas causes).result? = some outcome) :
    (outcome = none ∧ scope.isStrict = false) ∨
      ∃ schema ∈ schemas, ∃ kind result, (members.kind schema).result? = some kind ∧
        kind.accepts value.category = true ∧
        (members.validate schema (some value) path scope).result? = some result ∧
        outcome = some (result.getD value) := by
  induction schemas generalizing causes with
  | nil =>
    rw [firstOf] at accepted
    split at accepted
    · cases accepted
    · rename_i lenient
      exact .inl ⟨(Option.some.inj accepted).symm, by simpa using lenient⟩
  | cons schema rest ih =>
    rw [firstOf, Run.result?_bind, Option.bind_eq_some_iff] at accepted
    obtain ⟨kind, found, tried⟩ := accepted
    split at tried
    · cases tried
    · split at tried
      · exact (ih tried).imp_right List.exists_mem_cons_of_exists
      · rename_i offered
        rw [Run.result?_bind, Option.bind_eq_some_iff] at tried
        obtain ⟨attempted, ended, chosen⟩ := tried
        cases attempted with
        | ok result =>
          exact .inr ⟨schema, List.mem_cons_self, kind, result, found, by simpa using offered,
            Run.result?_attempt_ok.mp ended, (Option.some.inj chosen).symm⟩
        | error fault =>
          rw [Run.result?_bind, Run.result?_note, Option.bind_some] at chosen
          exact (ih chosen).imp_right List.exists_mem_cons_of_exists

end Members

namespace Step

variable {κ : Type} {host : Host κ} {members : Members κ} {settings : Settings κ} {path : Path}
  {scope : Scope} {value : Value} {replaced : Option Value}

/-- An accepted check found nothing to object to and replaces nothing. -/
theorem run_check_accepted {condition : Check κ}
    (accepted : ((check condition).run host members settings value path scope).result? =
      some replaced) :
    condition.objection? host value path scope = none ∧ replaced = none := by
  rw [run, Run.result?_bind, Run.result?_ofFault, Check.run] at accepted
  cases objection : condition.objection? host value path scope with
  | none =>
    rw [objection] at accepted
    exact ⟨rfl, (Option.some.inj accepted).symm⟩
  | some reason =>
    rw [objection] at accepted
    cases accepted

/-- Accepted keys replace nothing. -/
theorem run_keys_accepted {schema : Schema κ}
    (accepted : ((keys schema).run host members settings value path scope).result? =
      some replaced) : replaced = none := by
  cases value with
  | object entries =>
    rw [run, Run.result?_bind, Option.bind_eq_some_iff] at accepted
    obtain ⟨_, _, ended⟩ := accepted
    exact (Option.some.inj ended).symm
  | _ => exact (Option.some.inj accepted).symm

/-- A step that can only refuse replaces nothing. -/
theorem run_role_check_accepted {step : Step κ} (role : step.role = .check)
    (accepted : (step.run host members settings value path scope).result? = some replaced) :
    replaced = none := by
  cases step with
  | check condition => exact (run_check_accepted accepted).2
  | keys schema => exact run_keys_accepted accepted
  | _ => cases role

/-- Accepted items replace the array that they are of; another value is left alone. -/
theorem run_elements_accepted {schema : Schema κ}
    (accepted : ((elements schema).run host members settings value path scope).result? =
      some replaced) :
    (∃ items results, value = .array items ∧
      (members.elements schema path scope 0 items).result? = some results ∧
      replaced = some (.array results)) ∨ (value.array? = none ∧ replaced = none) := by
  cases value with
  | array items =>
    rw [run, Run.result?_bind, Option.bind_eq_some_iff] at accepted
    obtain ⟨results, validated, ended⟩ := accepted
    exact .inl ⟨items, results, rfl, validated, (Option.some.inj ended).symm⟩
  | _ => exact .inr ⟨rfl, (Option.some.inj accepted).symm⟩

/-- Accepted values replace the object that they are of; another value is left alone. -/
theorem run_values_accepted {schema : Schema κ}
    (accepted : ((values schema).run host members settings value path scope).result? =
      some replaced) :
    (∃ entries results, value = .object entries ∧
      (members.values schema path scope entries).result? = some results ∧
      replaced = some (.object results)) ∨ (value.object? = none ∧ replaced = none) := by
  cases value with
  | object entries =>
    rw [run, Run.result?_bind, Option.bind_eq_some_iff] at accepted
    obtain ⟨results, validated, ended⟩ := accepted
    exact .inl ⟨entries, results, rfl, validated, (Option.some.inj ended).symm⟩
  | _ => exact .inr ⟨rfl, (Option.some.inj accepted).symm⟩

/-- What replaces a value whose fields were validated: the fields built with those that were not
declared, if it is a plain object. -/
def rebuilt (value : Value) (built unknown : List (String × Value)) : Option Value :=
  match value with
  | .object _ => some (.object (Entries.overlay built unknown))
  | _ => none

/-- Where an exact shape finds no undeclared entry, the fields are validated beside the value that
they are of, and it is rebuilt. -/
theorem run_fields_of_closed {declared : List (String × Schema κ)} {input : List (String × Value)}
    (given : value.fields? = some input)
    (closed : settings.exact = true → scope.isStrict = true → undeclared declared input = []) :
    (fields declared).run host members settings value path scope =
      members.fields input path (scope.withCurrent value) declared [] >>= fun built =>
        pure (rebuilt value built (undeclared declared input)) := by
  have allowed : ¬ (settings.exact && scope.isStrict &&
      !(undeclared declared input).isEmpty) = true := by
    cases exact : settings.exact with
    | false => simp
    | true =>
      cases strict : scope.isStrict with
      | false => simp
      | true => simp [closed exact strict]
  rw [run, runFields, given]
  dsimp only
  rw [if_neg allowed]
  cases value <;> rfl

/-- Accepted fields were validated beside the value that they are of, and under an exact shape all
of its keys are declared; a value without fields is left alone. -/
theorem run_fields_accepted {declared : List (String × Schema κ)}
    (accepted : ((fields declared).run host members settings value path scope).result? =
      some replaced) :
    (∃ input built, value.fields? = some input ∧
      (settings.exact = true → scope.isStrict = true → undeclared declared input = []) ∧
      (members.fields input path (scope.withCurrent value) declared []).result? = some built ∧
      replaced = rebuilt value built (undeclared declared input)) ∨
    (value.fields? = none ∧ replaced = none) := by
  rw [run, runFields] at accepted
  split at accepted
  · rename_i bare
    exact .inr ⟨bare, (Option.some.inj accepted).symm⟩
  · rename_i input given
    dsimp only at accepted
    split at accepted
    · cases accepted
    · rename_i allowed
      rw [Run.result?_bind, Option.bind_eq_some_iff] at accepted
      obtain ⟨built, validated, ended⟩ := accepted
      refine .inl ⟨input, built, given, fun exact strict => ?_, validated, ?_⟩
      · simpa [exact, strict] using allowed
      · cases value <;> exact (Option.some.inj ended).symm

/-- The entries that no field declares lead where all entries lead, but from no declared name. -/
theorem lookup_undeclared (declared : List (String × Schema κ)) (input : List (String × Value))
    (key : String) :
    (undeclared declared input).lookup key =
      if key ∈ declared.map Prod.fst then none else input.lookup key := by
  rw [undeclared, Entries.lookup_restrict fun key => !(declared.any fun field => field.1 == key)]
  by_cases listed : key ∈ declared.map Prod.fst
  · obtain ⟨field, member, same⟩ := List.mem_map.mp listed
    have found : (declared.any fun field => field.1 == key) = true :=
      List.any_eq_true.mpr ⟨field, member, beq_iff_eq.mpr same⟩
    rw [if_pos listed, found, Bool.not_true, if_neg Bool.false_ne_true]
  · have absent : (declared.any fun field => field.1 == key) = false := by
      rw [List.any_eq_false]
      intro field member same
      exact listed (List.mem_map.mpr ⟨field, member, beq_iff_eq.mp same⟩)
    rw [if_neg listed, absent, Bool.not_false, if_pos rfl]

/-- No entry is undeclared exactly when every key is declared. -/
theorem undeclared_eq_nil {declared : List (String × Schema κ)} {input : List (String × Value)} :
    undeclared declared input = [] ↔
      ∀ key, input.lookup key ≠ none → key ∈ declared.map Prod.fst := by
  constructor
  · intro closed key present
    by_contra other
    have kept := lookup_undeclared declared input key
    rw [if_neg other, closed, List.lookup_nil] at kept
    exact present kept.symm
  · intro closed
    by_contra filled
    obtain ⟨entry, listed⟩ := List.exists_mem_of_ne_nil _ filled
    obtain ⟨given, differs⟩ := List.mem_filter.mp listed
    have present : input.lookup entry.1 ≠ none := by
      intro absent
      have unlike := List.lookup_eq_none_iff.mp absent entry given
      simp at unlike
    obtain ⟨field, member, same⟩ := List.mem_map.mp (closed entry.1 present)
    have found : (declared.any fun field => field.1 == entry.1) = true :=
      List.any_eq_true.mpr ⟨field, member, beq_iff_eq.mpr same⟩
    rw [found] at differs
    cases differs

/-- Key by key, an object built from accepted fields has the last value among the outcomes of the
fields declared under a name, and under another key what was there before. -/
theorem fields_outcomes {declared : List (String × Schema κ)} {input built : List (String × Value)}
    (accepted : (members.fields input path scope declared []).result? = some built) :
    ∃ outcomes, List.Forall₂ (fun field outcome => outcome.1 = field.1 ∧
      (members.validate field.2 (input.lookup field.1) (path.key field.1) scope).result? =
        some outcome.2) declared outcomes ∧
      ∀ key, (Entries.overlay built (undeclared declared input)).lookup key =
        if key ∈ declared.map Prod.fst then Entries.latest key outcomes else input.lookup key := by
  obtain ⟨outcomes, each, same⟩ := Members.fields_accepted accepted
  refine ⟨outcomes, each, fun key => ?_⟩
  rw [Entries.lookup_overlay, lookup_undeclared, same, Entries.lookup_collect, List.lookup_nil,
    Option.or_none]
  by_cases listed : key ∈ declared.map Prod.fst
  · rw [if_pos listed, if_pos listed, Option.none_or]
  · rw [if_neg listed, if_neg listed, Entries.latest_eq_none, Option.or_none]
    rwa [← Entries.names_of_forall₂ each]

/-- An object built from accepted fields has its keys in order. -/
theorem sorted_fields {declared : List (String × Schema κ)} {input built : List (String × Value)}
    (accepted : (members.fields input path scope declared []).result? = some built) :
    Entries.Sorted (Entries.overlay built (undeclared declared input)) := by
  obtain ⟨outcomes, _, rfl⟩ := Members.fields_accepted accepted
  exact Entries.sorted_overlay _ (Entries.sorted_collect outcomes List.Pairwise.nil)

/-- Where no field is declared twice, an object built from accepted fields has under each name the
outcome of its field. -/
theorem fields_distinct {declared : List (String × Schema κ)}
    {input built : List (String × Value)} (distinct : (declared.map Prod.fst).Nodup)
    (accepted : (members.fields input path scope declared []).result? = some built) {name : String}
    {schema : Schema κ} (listed : (name, schema) ∈ declared) :
    (members.validate schema (input.lookup name) (path.key name) scope).result? =
      some ((Entries.overlay built (undeclared declared input)).lookup name) := by
  obtain ⟨outcomes, each, found⟩ := fields_outcomes accepted
  obtain ⟨⟨label, outcome⟩, member, same, validated⟩ :=
    Entries.exists_left_of_forall₂ each.flip listed
  obtain rfl : label = name := same
  have last : Entries.latest label outcomes = outcome :=
    Entries.latest_of_mem (Entries.names_of_forall₂ each ▸ distinct) member
  rw [found label, if_pos (List.mem_map_of_mem listed), last]
  exact validated

/-- Only steps about content are left out. -/
theorem isAboutContent_of_isSkipped {step : Step κ}
    (skipped : step.isSkipped settings value = true) : step.isAboutContent = true := by
  simp only [isSkipped, Bool.and_eq_true] at skipped
  exact skipped.1.1

/-- A step that is not left out is one that can rebuild, unless validation is strict. -/
theorem due_of_taken {step : Step κ}
    (taken : ¬ ((!scope.isStrict && step.role == .check) || step.isSkipped settings value) = true) :
    scope.isStrict = true ∨ step.role = .rebuild := by
  cases strict : scope.isStrict with
  | true => exact .inl rfl
  | false =>
    cases role : step.role with
    | check => simp [strict, role] at taken
    | rebuild => exact .inr rfl

/-- Accepted positions replace the array that they are of, which under strict validation is not too
long; another value is left alone. -/
theorem run_positions_accepted {schemas : List (Schema κ)}
    (accepted : ((positions schemas).run host members settings value path scope).result? =
      some replaced) :
    (∃ items results, value = .array items ∧
      (scope.isStrict = true → items.length ≤ schemas.length) ∧
      (members.positions path scope 0 schemas items).result? = some results ∧
      replaced = some (.array results)) ∨ (value.array? = none ∧ replaced = none) := by
  cases value with
  | array items =>
    rw [run, runPositions] at accepted
    split at accepted
    · cases accepted
    · rename_i allowed
      rw [Run.result?_bind, Option.bind_eq_some_iff] at accepted
      obtain ⟨results, validated, ended⟩ := accepted
      refine .inl ⟨items, results, rfl, fun strict => ?_, validated,
        (Option.some.inj ended).symm⟩
      simpa [strict] using allowed
  | _ => exact .inr ⟨rfl, (Option.some.inj accepted).symm⟩

end Step

namespace Body

variable {κ : Type} {host : Host κ} {members : Members κ} {settings : Settings κ} {path : Path}
  {scope : Scope}

/-- Accepted steps begin with one that is left out, or whose result goes to the rest. -/
theorem takeSteps_cons_accepted {step : Step κ} {rest : List (Step κ)} {value final : Value}
    (accepted : (takeSteps host members settings path scope (step :: rest) value).result? =
      some final) :
    ((scope.isStrict = false ∧ step.role = .check ∨ step.isSkipped settings value = true) ∧
      (takeSteps host members settings path scope rest value).result? = some final) ∨
    ∃ replaced, (step.run host members settings value path scope).result? = some replaced ∧
      (takeSteps host members settings path scope rest (replaced.getD value)).result? =
        some final := by
  rw [takeSteps] at accepted
  split at accepted
  · rename_i omitted
    refine .inl ⟨?_, accepted⟩
    simpa using omitted
  · rw [Run.result?_bind, Option.bind_eq_some_iff] at accepted
    exact .inr accepted

/-- What every step preserves is preserved by all of them. -/
theorem takeSteps_preserves (property : Value → Prop) {steps : List (Step κ)} {value final : Value}
    (each : ∀ step ∈ steps, ∀ before replaced, property before →
      (step.run host members settings before path scope).result? = some replaced →
        property (replaced.getD before))
    (start : property value)
    (accepted : (takeSteps host members settings path scope steps value).result? = some final) :
    property final := by
  induction steps generalizing value with
  | nil =>
    obtain rfl := Option.some.inj accepted
    exact start
  | cons step rest ih =>
    have later := fun other member => each other (List.mem_cons_of_mem step member)
    rcases takeSteps_cons_accepted accepted with ⟨_, remaining⟩ | ⟨replaced, taken, remaining⟩
    · exact ih later start remaining
    · exact ih later (each step List.mem_cons_self value replaced start taken) remaining

/-- What a step establishes, taken or left out, and every step preserves holds in the end. -/
theorem takeSteps_establishes (property : Value → Prop) {steps : List (Step κ)} {step : Step κ}
    {value final : Value} (listed : step ∈ steps)
    (taken : scope.isStrict = true ∨ step.role = .rebuild)
    (omitted : ∀ before, step.isSkipped settings before = true → property before)
    (establishes : ∀ before replaced,
      (step.run host members settings before path scope).result? = some replaced →
        property (replaced.getD before))
    (each : ∀ other ∈ steps, ∀ before replaced, property before →
      (other.run host members settings before path scope).result? = some replaced →
        property (replaced.getD before))
    (accepted : (takeSteps host members settings path scope steps value).result? = some final) :
    property final := by
  induction steps generalizing value with
  | nil => cases listed
  | cons first rest ih =>
    have later := fun other member => each other (List.mem_cons_of_mem first member)
    rcases List.mem_cons.mp listed with here | there
    · subst here
      rcases takeSteps_cons_accepted accepted with ⟨left, remaining⟩ | ⟨replaced, ran, remaining⟩
      · rcases left with ⟨lenient, role⟩ | skipped
        · rcases taken with strict | rebuilds
          · rw [strict] at lenient
            cases lenient
          · rw [rebuilds] at role
            cases role
        · exact takeSteps_preserves property later (omitted value skipped) remaining
      · exact takeSteps_preserves property later (establishes value replaced ran) remaining
    · rcases takeSteps_cons_accepted accepted with ⟨_, remaining⟩ | ⟨_, _, remaining⟩
      · exact ih there later remaining
      · exact ih there later remaining

/-- Input is received as it is, or as the default if it is undefined; strict validation receives
neither required input that is undefined nor defined input that may not be. -/
theorem receive_accepted {value received : Option Value}
    (accepted : (receive host settings value path scope).result? = some received) :
    received = value.or (settings.default.resolve host path scope) ∧
      (value = none → settings.required = true → scope.isStrict = false) ∧
      (value ≠ none → settings.never = true → scope.isStrict = false) := by
  cases value with
  | none =>
    rw [receive] at accepted
    split at accepted
    · cases accepted
    · rename_i allowed
      refine ⟨(Option.some.inj accepted).symm, fun _ required => ?_,
        fun defined => absurd rfl defined⟩
      simpa [required] using allowed
  | some given =>
    have ended : (if settings.never && scope.isStrict then .reject (.located path .neverUsed)
        else pure (some given) : Run (Option Value)).result? = some received := by
      cases noticed : settings.deprecated <;>
        simpa only [receive, noticed, Run.result?_bind, Run.result?_note, Option.bind_some]
          using accepted
    split at ended
    · cases ended
    · rename_i allowed
      refine ⟨(Option.some.inj ended).symm,
        fun missing => absurd missing (Option.some_ne_none given), fun _ never => ?_⟩
      simpa [never] using allowed

/-- A processed value passed the type check, if that is made, and its result is what the steps left,
coerced. -/
theorem process_accepted {body : Body κ} {value result : Value}
    (accepted : (body.process host members value path scope).result? = some result) :
    (scope.isStrict = true → body.settings.kind.check value = true) ∧
      ∃ final, (takeSteps host members body.settings path scope body.steps value).result? =
        some final ∧ result = body.settings.kind.cast final := by
  rw [process] at accepted
  split at accepted
  · cases accepted
  · rename_i allowed
    rw [Run.result?_bind, Option.bind_eq_some_iff] at accepted
    obtain ⟨final, taken, ended⟩ := accepted
    refine ⟨fun strict => ?_, final, taken, (Option.some.inj ended).symm⟩
    simpa [strict] using allowed

/-- A step that can rebuild is taken in every mode. -/
theorem takeSteps_of_rebuild {step : Step κ} (role : step.role = .rebuild) (rest : List (Step κ))
    (value : Value) :
    takeSteps host members settings path scope (step :: rest) value = (do
      let replaced ← step.run host members settings value path scope
      takeSteps host members settings path scope rest (replaced.getD value)) := by
  have content : step.isAboutContent = false := by
    cases step <;> first | rfl | cases role
  simp [takeSteps, role, Step.isSkipped, content]

/-- Defined input other than null is refused if it may not be, and is processed else. -/
theorem validate_verdict {body : Body κ} {value : Value} (defined : value ≠ .null) :
    (body.validate host members (some value) path scope).verdict =
      if body.settings.never && scope.isStrict then .rejected (.located path .neverUsed)
      else (body.process host members value path scope >>= fun result =>
        pure (some result)).verdict := by
  have present : value.isNull = false := Value.isNull_eq_false_iff.mpr defined
  cases refused : body.settings.never && scope.isStrict with
  | true =>
    have ended : (receive host body.settings (some value) path scope).verdict =
        .rejected (.located path .neverUsed) := by
      simp only [receive, refused, if_true]
      cases body.settings.deprecated <;> rfl
    rw [if_pos rfl, validate, Run.verdict_bind_of_none (by simp [Run.result?, ended]), ended]
  | false =>
    have reached : (receive host body.settings (some value) path scope).result? =
        some (some value) := by
      simp only [receive, refused, Bool.false_eq_true, if_false]
      cases body.settings.deprecated <;> rfl
    rw [if_neg Bool.false_ne_true, validate, Run.verdict_bind_of_result reached]
    simp only [present, Bool.false_eq_true, if_false]

/-- Defined input other than null is accepted when it may be there, passes the type check and passes
the steps, and the result is what they leave, coerced. -/
theorem result?_validate {body : Body κ} {value : Value} (defined : value ≠ .null) :
    (body.validate host members (some value) path scope).result? =
      if scope.isStrict && (body.settings.never || !body.settings.kind.check value) then none
      else (takeSteps host members body.settings path scope body.steps value).result?.map fun left =>
        some (body.settings.kind.cast left) := by
  have processed : (body.process host members value path scope).result? =
      if scope.isStrict && !body.settings.kind.check value then none
      else (takeSteps host members body.settings path scope body.steps value).result?.map
        body.settings.kind.cast := by
    rw [process]
    split
    · rfl
    · rw [Run.result?_bind, Option.map_eq_bind]
      rfl
  have ended : (body.validate host members (some value) path scope).result? =
      if body.settings.never && scope.isStrict then none
      else (body.process host members value path scope).result?.map some := by
    rw [Run.result?, validate_verdict defined]
    cases body.settings.never && scope.isStrict with
    | true => rfl
    | false =>
      rw [Option.map_eq_bind]
      exact Run.result?_bind _ _
  rw [ended, processed]
  cases body.settings.never <;> cases scope.isStrict <;> cases body.settings.kind.check value <;>
    simp [Function.comp_def]

/-- An accepted validation received nothing and left it undefined, or received null and returned it,
or processed what it received. -/
theorem validate_accepted {body : Body κ} {value outcome : Option Value}
    (accepted : (body.validate host members value path scope).result? = some outcome) :
    (receive host body.settings value path scope).result? = some none ∧ outcome = none ∨
    (receive host body.settings value path scope).result? = some (some .null) ∧
      (scope.isStrict = true → body.settings.nullable = true) ∧ outcome = some .null ∨
    ∃ given result, (receive host body.settings value path scope).result? = some (some given) ∧
      given ≠ .null ∧ (body.process host members given path scope).result? = some result ∧
      outcome = some result := by
  rw [validate, Run.result?_bind, Option.bind_eq_some_iff] at accepted
  obtain ⟨received, arrived, ended⟩ := accepted
  cases received with
  | none => exact .inl ⟨arrived, (Option.some.inj ended).symm⟩
  | some given =>
    cases absent : given.isNull with
    | true =>
      obtain rfl := Value.isNull_iff.mp absent
      simp only [Value.isNull, if_true] at ended
      split at ended
      · rename_i allowed
        refine .inr (.inl ⟨arrived, fun strict => ?_, (Option.some.inj ended).symm⟩)
        simpa [strict] using allowed
      · cases ended
    | false =>
      have defined := Value.isNull_eq_false_iff.mp absent
      simp only [absent, Bool.false_eq_true, if_false, Run.result?_bind,
        Option.bind_eq_some_iff] at ended
      obtain ⟨result, processed, finished⟩ := ended
      exact .inr (.inr ⟨given, result, arrived, defined, processed,
        (Option.some.inj finished).symm⟩)

/-- Input that is received is left as it is when it is null and may be, or when processing leaves it as
it is. -/
theorem validate_of_processed {body : Body κ} {value : Value}
    (received : (receive host body.settings (some value) path scope).result? = some (some value))
    (allowed : value = .null → (body.settings.nullable || !scope.isStrict) = true)
    (processed : value ≠ .null →
      (body.process host members value path scope).result? = some value) :
    (body.validate host members (some value) path scope).result? = some (some value) := by
  rw [validate, Run.result?_bind, received, Option.bind_some]
  dsimp only
  cases absent : value.isNull with
  | true =>
    obtain rfl := Value.isNull_iff.mp absent
    rw [if_pos rfl, allowed rfl, if_pos rfl, Run.result?_pure]
  | false =>
    have defined := Value.isNull_eq_false_iff.mp absent
    rw [if_neg Bool.false_ne_true, Run.result?_bind, processed defined, Option.bind_some,
      Run.result?_pure]

/-- A schema of a kind and nothing else coerces what passes the type check of the kind. -/
theorem validate_ofKind {kind : Kind} {value : Value} (defined : value ≠ .null)
    (checked : kind.check value = true) :
    (ofKind kind).validate host members (some value) path scope =
      pure (some (kind.cast value)) := by
  have present : value.isNull = false := Value.isNull_eq_false_iff.mpr defined
  have processed : (ofKind kind).process host members value path scope =
      pure (kind.cast value) := by
    have allowed : (scope.isStrict && !kind.check value) = false := by simp [checked]
    unfold process
    change (if (scope.isStrict && !kind.check value) = true then _ else _) = _
    rw [allowed]
    rfl
  unfold validate
  change (if value.isNull then _ else (ofKind kind).process host members value path scope >>= _) = _
  rw [present, processed]
  rfl

/-- Defined input that is accepted has an outcome. -/
theorem validate_defined {body : Body κ} {value : Value} {outcome : Option Value}
    (accepted : (body.validate host members (some value) path scope).result? = some outcome) :
    ∃ result, outcome = some result := by
  rcases validate_accepted accepted with ⟨received, _⟩ | ⟨_, _, same⟩ | ⟨_, result, _, _, _, same⟩
  · cases (receive_accepted received).1
  · exact ⟨.null, same⟩
  · exact ⟨result, same⟩

end Body

end Assay
