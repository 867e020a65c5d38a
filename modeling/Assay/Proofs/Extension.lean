import Assay.Proofs.Acceptance

/-!
# Strict validation only adds

A value extends to another when the other keeps all that it supplies: each scalar and reference as
it is, or the date that a text or number denotes in its place, each item at its index and each field
under its key (`Value.ExtendsTo`). The relation is reflexive and transitive, so it is enough that
every step of a strict validation extends its value, whatever the schema, and that the coercion at
the end does.
-/
namespace Assay

namespace Value

/-- The second value keeps everything that the first one supplies. -/
inductive ExtendsTo : Value → Value → Prop
  /-- Null stays. -/
  | null : ExtendsTo .null .null
  /-- A truth value stays. -/
  | bool (truth : Bool) : ExtendsTo (.bool truth) (.bool truth)
  /-- A number may stay. -/
  | number (real : Float) : ExtendsTo (.number real) (.number real)
  /-- A text may stay. -/
  | string (text : String) : ExtendsTo (.string text) (.string text)
  /-- A date takes the place of a text or number that denotes it, and of itself. -/
  | date {value : Value} {instant : Instant} (denoted : value.toInstant? = some instant) :
      ExtendsTo value (.date instant)
  /-- An array keeps its items at their indices, and more may follow. -/
  | array {items results : List Value} (short : items.length ≤ results.length)
      (each : ∀ (place : Nat) (item result : Value), items[place]? = some item →
        results[place]? = some result → ExtendsTo item result) :
      ExtendsTo (.array items) (.array results)
  /-- A plain object keeps its fields under their keys, and there may be more. -/
  | object {fields results : List (String × Value)}
      (kept : ∀ key, fields.lookup key ≠ none → results.lookup key ≠ none)
      (each : ∀ (key : String) (value result : Value), fields.lookup key = some value →
        results.lookup key = some result → ExtendsTo value result) :
      ExtendsTo (.object fields) (.object results)
  /-- An instance stays. -/
  | inst (cls : Class) (fields : List (String × Value)) :
      ExtendsTo (.inst cls fields) (.inst cls fields)
  /-- A function stays. -/
  | function (callable : Function) : ExtendsTo (.function callable) (.function callable)

namespace ExtendsTo

/-- An array extends to one in which each of its items has one that it extends to. -/
theorem array_of {items results : List Value}
    (each : ∀ (place : Nat) (item : Value), items[place]? = some item →
      ∃ result, results[place]? = some result ∧ item.ExtendsTo result) :
    (Value.array items).ExtendsTo (.array results) := by
  refine .array ?_ fun place item result given stands => ?_
  · by_contra long
    have inside : results.length < items.length := by omega
    obtain ⟨result, stands, _⟩ := each results.length _ (List.getElem?_eq_getElem inside)
    rw [List.getElem?_eq_none (Nat.le_refl _)] at stands
    contradiction
  · obtain ⟨other, found, extended⟩ := each place item given
    rw [stands] at found
    obtain rfl := Option.some.inj found
    exact extended

/-- A plain object extends to one in which each of its fields has one that it extends to. -/
theorem object_of {fields results : List (String × Value)}
    (each : ∀ (key : String) (value : Value), fields.lookup key = some value →
      ∃ result, results.lookup key = some result ∧ value.ExtendsTo result) :
    (Value.object fields).ExtendsTo (.object results) := by
  refine .object (fun key present => ?_) fun key value result given stands => ?_
  · obtain ⟨value, given⟩ := Option.ne_none_iff_exists'.mp present
    obtain ⟨result, stands, _⟩ := each key value given
    rw [stands]
    exact Option.some_ne_none result
  · obtain ⟨other, found, extended⟩ := each key value given
    rw [stands] at found
    obtain rfl := Option.some.inj found
    exact extended

/-- Every value extends to itself. -/
theorem refl : ∀ value : Value, value.ExtendsTo value
  | .null => .null
  | .bool truth => .bool truth
  | .number real => .number real
  | .string text => .string text
  | .date _ => .date rfl
  | .inst cls fields => .inst cls fields
  | .function callable => .function callable
  | .array items => array_of fun place item given =>
      have smaller : sizeOf item < sizeOf (Value.array items) :=
        Nat.lt_of_lt_of_le (List.sizeOf_lt_of_mem (List.mem_of_getElem? given)) (by simp)
      ⟨item, given, refl item⟩
  | .object fields => object_of fun key value given =>
      have smaller : sizeOf value < sizeOf (Value.object fields) := by
        have inside := List.sizeOf_lt_of_mem (Entries.mem_of_lookup given)
        simp only [Prod.mk.sizeOf_spec, Value.object.sizeOf_spec] at inside ⊢
        omega
      ⟨value, given, refl value⟩
termination_by value => sizeOf value
decreasing_by all_goals exact smaller

/-- A value extends to what something that it extends to does. -/
theorem trans {first second third : Value} (one : first.ExtendsTo second)
    (other : second.ExtendsTo third) : first.ExtendsTo third := by
  induction one generalizing third with
  | date denoted =>
    cases other with
    | date same =>
      obtain rfl := Option.some.inj same
      exact .date denoted
  | array short _ ih =>
    cases other with
    | date denoted => cases denoted
    | array longer each =>
      refine .array (Nat.le_trans short longer) fun place item result given stands => ?_
      have inside := (List.getElem?_eq_some_iff.mp given).1
      have between := List.getElem?_eq_getElem (Nat.lt_of_lt_of_le inside short)
      exact ih place item _ given between (each place _ result between stands)
  | object kept _ ih =>
    cases other with
    | date denoted => cases denoted
    | object later each =>
      refine .object (fun key present => later key (kept key present))
        fun key value result given stands => ?_
      obtain ⟨middle, between⟩ := Option.ne_none_iff_exists'.mp
        (kept key (given ▸ Option.some_ne_none value))
      exact ih key value middle given between (each key middle result between stands)
  | _ => exact other

/-- What a value denotes, anything that it extends to denotes. -/
theorem toInstant? {value later : Value} (extended : value.ExtendsTo later) {instant : Instant}
    (denoted : value.toInstant? = some instant) : later.toInstant? = some instant := by
  cases extended with
  | date same => exact same.symm.trans denoted
  | array => cases denoted
  | object => cases denoted
  | _ => exact denoted

/-- An array extends to arrays only. -/
theorem of_array {items : List Value} {later : Value}
    (extended : (Value.array items).ExtendsTo later) : ∃ results, later = .array results := by
  cases extended with
  | date denoted => cases denoted
  | array => exact ⟨_, rfl⟩

/-- A plain object extends to plain objects only. -/
theorem of_object {fields : List (String × Value)} {later : Value}
    (extended : (Value.object fields).ExtendsTo later) : ∃ results, later = .object results := by
  cases extended with
  | date denoted => cases denoted
  | object => exact ⟨_, rfl⟩

/-- Only null extends to null. -/
theorem ne_null {value later : Value} (extended : value.ExtendsTo later)
    (defined : value ≠ .null) : later ≠ .null := by
  cases extended with
  | null => exact defined
  | _ => exact fun null => by cases null

end ExtendsTo

end Value

/-- Where a value passes the type check, coercing what it extends to adds at most its date. -/
theorem Kind.cast_extends {kind : Kind} {value later : Value} (checked : kind.check value = true)
    (extended : value.ExtendsTo later) : value.ExtendsTo (kind.cast later) := by
  cases kind with
  | string =>
    cases value <;> try cases checked
    cases extended with
    | string => exact .string _
    | date denoted => exact .date denoted
  | number =>
    cases value <;> try cases checked
    cases extended with
    | number => exact .number _
    | date denoted => exact .date denoted
  | boolean =>
    cases value <;> try cases checked
    cases extended with
    | bool => exact .bool _
    | date denoted => cases denoted
  | date =>
    obtain ⟨instant, denoted⟩ := Option.isSome_iff_exists.mp checked
    have coerced : Kind.date.cast later = .date instant := by
      rw [Kind.cast, extended.toInstant? denoted]
      rfl
    rw [coerced]
    exact .date denoted
  | _ => exact extended

variable {κ : Type}

/-- Strictly validated, every schema keeps what defined input supplies. -/
def Members.Keep (members : Members κ) : Prop :=
  ∀ (schema : Schema κ) (value : Value) (path : Path) (scope : Scope) (outcome : Option Value),
    scope.isStrict = true →
    (members.validate schema (some value) path scope).result? = some outcome →
      ∃ result, outcome = some result ∧ value.ExtendsTo result

namespace Step

variable {host : Host κ} {members : Members κ} {settings : Settings κ} {path : Path}
  {scope : Scope} {value : Value} {replaced : Option Value}

/-- An array extends to its items validated. -/
theorem elements_extend (keep : members.Keep) (strict : scope.isStrict = true) {schema : Schema κ}
    {items results : List Value}
    (accepted : (members.elements schema path scope 0 items).result? = some results) :
    (Value.array items).ExtendsTo (.array results) := by
  obtain ⟨_, each⟩ := Members.elements_accepted accepted
  refine .array_of fun place item given => ?_
  obtain ⟨outcome, validated, stands⟩ := each place item given
  obtain ⟨result, rfl, extended⟩ := keep schema item _ scope outcome strict validated
  exact ⟨result, stands, extended⟩

/-- A plain object extends to its values validated. -/
theorem values_extend (keep : members.Keep) (strict : scope.isStrict = true) {schema : Schema κ}
    {entries results : List (String × Value)}
    (accepted : (members.values schema path scope entries).result? = some results) :
    (Value.object entries).ExtendsTo (.object results) := by
  refine .object_of fun key value given => ?_
  obtain ⟨result, found, outcome, validated, same⟩ :=
    Entries.lookup_of_forall₂ (Members.values_accepted accepted) given
  obtain ⟨kept, rfl, extended⟩ := keep schema value _ scope outcome strict validated
  dsimp only at same
  rw [same] at found
  exact ⟨kept, found, extended⟩

/-- A plain object extends to its declared fields validated, with those not declared. -/
theorem fields_extend (keep : members.Keep) (strict : scope.isStrict = true)
    {declared : List (String × Schema κ)} {input built : List (String × Value)}
    (accepted : (members.fields input path scope declared []).result? = some built) :
    (Value.object input).ExtendsTo
      (.object (Entries.overlay built (undeclared declared input))) := by
  obtain ⟨outcomes, each, found⟩ := fields_outcomes accepted
  refine .object_of fun key value given => ?_
  rw [found key]
  by_cases listed : key ∈ declared.map Prod.fst
  · rw [if_pos listed]
    refine Entries.latest_of_all (fun outcome member same => ?_)
      (Entries.names_of_forall₂ each ▸ listed)
    obtain ⟨field, _, name, validated⟩ := Entries.exists_left_of_forall₂ each member
    rw [← name, same, given] at validated
    exact keep field.2 value _ scope outcome.2 strict validated
  · rw [if_neg listed]
    exact ⟨value, given, .refl value⟩

/-- An array that is not too long extends to its positions validated. -/
theorem positions_extend (keep : members.Keep) (strict : scope.isStrict = true)
    {schemas : List (Schema κ)} {items results : List Value} (short : items.length ≤ schemas.length)
    (accepted : (members.positions path scope 0 schemas items).result? = some results) :
    (Value.array items).ExtendsTo (.array results) := by
  obtain ⟨_, each⟩ := Members.positions_accepted accepted
  refine .array_of fun place item given => ?_
  have inside : place < schemas.length :=
    Nat.lt_of_lt_of_le (List.getElem?_eq_some_iff.mp given).1 short
  obtain ⟨outcome, validated, stands⟩ := each place _ (List.getElem?_eq_getElem inside)
  rw [given] at validated
  obtain ⟨result, rfl, extended⟩ := keep _ item _ scope outcome strict validated
  exact ⟨result, stands, extended⟩

/-- Whatever a step replaces a value by, the value extends to it. -/
theorem run_extends (keep : members.Keep) (strict : scope.isStrict = true) {step : Step κ}
    (accepted : (step.run host members settings value path scope).result? = some replaced) :
    value.ExtendsTo (replaced.getD value) := by
  cases step with
  | check condition =>
    obtain ⟨_, rfl⟩ := run_check_accepted accepted
    exact .refl value
  | keys schema =>
    obtain rfl := run_keys_accepted accepted
    exact .refl value
  | elements schema =>
    rcases run_elements_accepted accepted with ⟨items, results, rfl, validated, rfl⟩ | ⟨_, rfl⟩
    · exact elements_extend keep strict validated
    · exact .refl value
  | values schema =>
    rcases run_values_accepted accepted with ⟨entries, results, rfl, validated, rfl⟩ | ⟨_, rfl⟩
    · exact values_extend keep strict validated
    · exact .refl value
  | fields declared =>
    rcases run_fields_accepted accepted with ⟨input, built, given, _, validated, rfl⟩ | ⟨_, rfl⟩
    · cases value with
      | object entries =>
        obtain rfl := Option.some.inj given
        exact fields_extend keep (show (scope.withCurrent _).isStrict = true from strict) validated
      | _ => exact .refl _
    · exact .refl value
  | positions schemas =>
    rcases run_positions_accepted accepted with
      ⟨items, results, rfl, short, validated, rfl⟩ | ⟨_, rfl⟩
    · exact positions_extend keep strict (short strict) validated
    · exact .refl value
  | members schemas =>
    rcases Members.firstOf_accepted accepted with
      ⟨rfl, _⟩ | ⟨schema, _, _, outcome, _, _, validated, rfl⟩
    · exact .refl value
    · obtain ⟨result, rfl, extended⟩ := keep schema value path scope outcome strict validated
      exact extended

end Step

/-- What the steps of a body leave extends the value that they were taken with. -/
theorem Body.takeSteps_extend {host : Host κ} {members : Members κ} {settings : Settings κ}
    {path : Path} {scope : Scope} {steps : List (Step κ)} {value final : Value}
    (keep : members.Keep) (strict : scope.isStrict = true)
    (accepted : (takeSteps host members settings path scope steps value).result? = some final) :
    value.ExtendsTo final := by
  refine takeSteps_preserves value.ExtendsTo (fun step _ before replaced extended ran => ?_)
    (.refl value) accepted
  have later : before.ExtendsTo (replaced.getD before) := Step.run_extends keep strict ran
  exact extended.trans later

/-- Strict validation of defined input by a body keeps what the input supplies. -/
theorem Body.validate_extends {host : Host κ} {members : Members κ} {body : Body κ} {path : Path}
    {scope : Scope} {value : Value} {outcome : Option Value} (keep : members.Keep)
    (strict : scope.isStrict = true)
    (accepted : (body.validate host members (some value) path scope).result? = some outcome) :
    ∃ result, outcome = some result ∧ value.ExtendsTo result := by
  rcases validate_accepted accepted with ⟨received, _⟩ | ⟨received, _, rfl⟩ |
    ⟨given, result, received, _, processed, rfl⟩
  · cases (receive_accepted received).1
  · obtain rfl := Option.some.inj (receive_accepted received).1
    exact ⟨.null, rfl, .null⟩
  · obtain rfl := Option.some.inj (receive_accepted received).1
    obtain ⟨checked, final, taken, rfl⟩ := process_accepted processed
    exact ⟨_, rfl, Kind.cast_extends (checked strict) (takeSteps_extend keep strict taken)⟩

/-- At every depth, strictly validated schemas keep what defined input supplies. -/
theorem Schema.membersAt_keep (host : Host κ) (depth : Nat) : (membersAt host depth).Keep := by
  induction depth using Nat.strongRecOn with
  | ind depth ih =>
    -- Looking deferred schemas up takes depth as well, so members may lie several levels below.
    intro schema value path scope outcome strict accepted
    obtain ⟨body, inner, below, _, validated⟩ := validateAt_accepted accepted
    exact Body.validate_extends (ih inner below) strict validated

/-- Strict validation only adds: accepted, defined input has a result, and extends to it. -/
theorem Schema.validateAt_extends (host : Host κ) (depth : Nat) (schema : Schema κ) (value : Value)
    (path : Path) (scope : Scope) (strict : scope.mode = .strict) (outcome : Option Value)
    (accepted : (schema.validateAt host depth (some value) path scope).result? = some outcome) :
    ∃ result, outcome = some result ∧ value.ExtendsTo result := by
  have strictly : scope.isStrict = true := Scope.isStrict_of_mode strict
  have keep : (membersAt host depth).Keep := membersAt_keep host depth
  exact keep schema value path scope outcome strictly accepted

/-- An event whose fields are rebuilt once more, each by one of several kinds. -/
def rebuiltEvent : Body Unit :=
  event.refine (.values (.built ((Body.ofKind .union).refine (.members [.built (.ofKind .date),
    .built (.ofKind .boolean), .built (.ofKind .array), .built (.ofKind .string),
    .built (.ofKind .number)]))))

/-- An event that is rebuilt twice extends to its result. -/
theorem Schema.validateAt_extends_event :
    (Scope.new .strict).mode = .strict ∧
      ((Schema.built rebuiltEvent).validateAt events 4 (some eventGiven) .root
        (.new .strict)).result? = some (some eventFound) ∧
      ∃ result, some eventFound = some result ∧ eventGiven.ExtendsTo result :=
  ⟨rfl, rfl, validateAt_extends events 4 (.built rebuiltEvent) eventGiven .root (.new .strict) rfl
    (some eventFound) rfl⟩

end Assay
