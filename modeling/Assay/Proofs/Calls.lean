import Assay.Proofs.Acceptance

/-!
# The calls that a step makes

A step reaches its schemas through calls only, and a call says which schema is given which input,
where and in which surroundings (`Step.Calls`). Calls stay in the mode of the step
(`Step.Calls.isStrict`). What every call ends within, the step ends within, provided that the step's
own faults are allowed (`Step.run_endsWithin`), and so do the steps of a body, which find the value
as it was received until one of them rebuilds it (`Body.takeSteps_endsWithin`).
-/
namespace Assay

variable {κ : Type}

/-- The step, taken with a value at a place, may validate the input by the schema at another
place. -/
inductive Step.Calls :
    Step κ → Value → Path → Scope → Schema κ → Option Value → Path → Scope → Prop
  /-- A key of an object, as a text at its field. -/
  | key {schema : Schema κ} {entries : List (String × Value)} {entry : String × Value} {path : Path}
      {scope : Scope} (listed : entry ∈ entries) :
      Calls (.keys schema) (.object entries) path scope schema (some (.string entry.1))
        (path.key entry.1) scope
  /-- An item of an array, at its index. -/
  | element {schema : Schema κ} {items : List Value} {item : Value} {index : Nat} {path : Path}
      {scope : Scope} (found : items[index]? = some item) :
      Calls (.elements schema) (.array items) path scope schema (some item) (path.index index) scope
  /-- A value of an object, at its key. -/
  | value {schema : Schema κ} {entries : List (String × Value)} {entry : String × Value}
      {path : Path} {scope : Scope} (listed : entry ∈ entries) :
      Calls (.values schema) (.object entries) path scope schema (some entry.2)
        (path.key entry.1) scope
  /-- What is given for a declared field, beside the value that it is a field of. -/
  | field {declared : List (String × Schema κ)} {field : String × Schema κ} {value : Value}
      {input : List (String × Value)} {path : Path} {scope : Scope} (listed : field ∈ declared)
      (given : value.fields? = some input) :
      Calls (.fields declared) value path scope field.2 (input.lookup field.1)
        (path.key field.1) (scope.withCurrent value)
  /-- What is given for a declared position, at its index. -/
  | position {schemas : List (Schema κ)} {schema : Schema κ} {items : List Value} {index : Nat}
      {path : Path} {scope : Scope} (found : schemas[index]? = some schema) :
      Calls (.positions schemas) (.array items) path scope schema items[index]?
        (path.index index) scope
  /-- The value itself, for a member of a union. -/
  | member {schemas : List (Schema κ)} {schema : Schema κ} {value : Value} {path : Path}
      {scope : Scope} (listed : schema ∈ schemas) :
      Calls (.members schemas) value path scope schema (some value) path scope

namespace Step.Calls

variable {step : Step κ} {value : Value} {path place : Path} {scope inside : Scope}
  {schema : Schema κ} {input : Option Value}

/-- A step calls on the schemas that it hands values on to. -/
theorem handed (calls : step.Calls value path scope schema input place inside) :
    schema ∈ step.schemas := by
  cases calls with
  | key | element | value => exact List.mem_singleton_self schema
  | field listed => exact List.mem_map_of_mem listed
  | position found => exact List.mem_of_getElem? found
  | member listed => exact listed

/-- Calls are strict where the step is. -/
theorem isStrict (calls : step.Calls value path scope schema input place inside) :
    inside.isStrict = scope.isStrict := by
  cases calls <;> rfl

end Step.Calls

variable {faults : Fault → Prop} {halts : Prop} {path : Path} {scope : Scope}

namespace Members

variable {members : Members κ} {schema : Schema κ}

/-- The items of an array end within bounds when each of them does. -/
theorem elements_endsWithin {index : Nat} {items : List Value}
    (each : ∀ place item, items[place]? = some item →
      (members.validate schema (some item) (path.index (index + place)) scope).EndsWithin
        faults halts) :
    (members.elements schema path scope index items).EndsWithin faults halts := by
  induction items generalizing index with
  | nil => exact .pure []
  | cons item rest ih =>
    have later : (members.elements schema path scope (index + 1) rest).EndsWithin faults halts := by
      apply ih
      intro place other found
      have moved : index + 1 + place = index + (place + 1) := by omega
      rw [moved]
      exact each (place + 1) other found
    exact (each 0 item rfl).bind fun _ _ => later.bind fun _ _ => .pure _

/-- The values of an object end within bounds when each of them does. -/
theorem values_endsWithin {entries : List (String × Value)}
    (each : ∀ entry ∈ entries,
      (members.validate schema (some entry.2) (path.key entry.1) scope).EndsWithin faults halts) :
    (members.values schema path scope entries).EndsWithin faults halts := by
  induction entries with
  | nil => exact .pure []
  | cons entry rest ih =>
    obtain ⟨first, later⟩ := List.forall_mem_cons.mp each
    exact first.bind fun _ _ => (ih later).bind fun _ _ => .pure _

/-- The keys of an object end within bounds when each of them does. -/
theorem keys_endsWithin {entries : List (String × Value)}
    (each : ∀ entry ∈ entries,
      (members.validate schema (some (.string entry.1)) (path.key entry.1) scope).EndsWithin
        faults halts) :
    (members.keys schema path scope entries).EndsWithin faults halts := by
  induction entries with
  | nil => exact .pure ()
  | cons entry rest ih =>
    obtain ⟨first, later⟩ := List.forall_mem_cons.mp each
    exact first.bind fun _ _ => ih later

/-- Declared fields end within bounds when each of them does. -/
theorem fields_endsWithin {declared : List (String × Schema κ)} {input : List (String × Value)}
    (each : ∀ field ∈ declared,
      (members.validate field.2 (input.lookup field.1) (path.key field.1) scope).EndsWithin
        faults halts)
    (output : List (String × Value)) :
    (members.fields input path scope declared output).EndsWithin faults halts := by
  induction declared generalizing output with
  | nil => exact .pure output
  | cons field rest ih =>
    obtain ⟨first, later⟩ := List.forall_mem_cons.mp each
    exact first.bind fun _ _ => ih later _

/-- The positions of an array end within bounds when each of them does. -/
theorem positions_endsWithin {index : Nat} {schemas : List (Schema κ)} {items : List Value}
    (each : ∀ place schema, schemas[place]? = some schema →
      (members.validate schema items[place]? (path.index (index + place)) scope).EndsWithin
        faults halts) :
    (members.positions path scope index schemas items).EndsWithin faults halts := by
  induction schemas generalizing index items with
  | nil => exact .pure []
  | cons schema rest ih =>
    have first : (members.validate schema items.head? (path.index index) scope).EndsWithin
        faults halts := by
      rw [List.head?_eq_getElem?]
      exact each 0 schema rfl
    have later : (members.positions path scope (index + 1) rest items.tail).EndsWithin
        faults halts := by
      apply ih
      intro place other found
      have moved : index + 1 + place = index + (place + 1) := by omega
      rw [moved, List.getElem?_tail]
      exact each (place + 1) other found
    exact first.bind fun _ _ => later.bind fun _ _ => .pure _

/-- A union ends within bounds when each of its members does, and its own faults are allowed: that
no member accepts the value, which only strict validation minds, and that a member is a union. -/
theorem firstOf_endsWithin {names : List String} {value : Value} {schemas : List (Schema κ)}
    {causes : List Fault}
    (kinds : ∀ schema ∈ schemas, (members.kind schema).EndsWithin faults halts)
    (each : ∀ schema ∈ schemas,
      (members.validate schema (some value) path scope).EndsWithin faults halts)
    (nested : ∀ schema ∈ schemas, (members.kind schema).result? = some .union →
      faults (.located path .nestedUnion))
    (united : scope.isStrict = true → ∀ causes, (∀ cause ∈ causes, faults cause) →
      faults (noMemberFault names value path causes))
    (caused : ∀ cause ∈ causes, faults cause) :
    (members.firstOf names value path scope schemas causes).EndsWithin faults halts := by
  induction schemas generalizing causes with
  | nil =>
    rw [firstOf]
    split
    · rename_i strict
      exact united strict causes caused
    · exact .pure none
  | cons schema rest ih =>
    obtain ⟨known, others⟩ := List.forall_mem_cons.mp kinds
    obtain ⟨first, later⟩ := List.forall_mem_cons.mp each
    obtain ⟨own, further⟩ := List.forall_mem_cons.mp nested
    rw [firstOf]
    refine known.bind fun kind found => ?_
    by_cases union : kind = .union
    · rw [if_pos union]
      exact own (union ▸ found)
    · rw [if_neg union]
      split
      · exact ih others later further caused
      · refine first.attempt (fun result => .pure _) fun fault refused => ?_
        have longer : ∀ cause ∈ causes ++ [fault], faults cause := by
          intro cause listed
          rcases List.mem_append.mp listed with old | new
          · exact caused cause old
          · exact List.mem_singleton.mp new ▸ refused
        exact (Run.EndsWithin.note _).bind fun _ _ => ih others later further longer

end Members

namespace Step

variable {host : Host κ} {members : Members κ} {settings : Settings κ}

/-- A step ends within bounds when each of its calls does, the kinds of a union's members are found
within them, and its own faults are allowed, of which a step that can rebuild has only that of a
nested union where validation is lenient. -/
theorem run_endsWithin {step : Step κ} {value : Value}
    (own : scope.isStrict = true ∨ step.role = .check → ∀ reason, faults (.located path reason))
    (united : scope.isStrict = true → ∀ schemas, step = .members schemas → ∀ causes,
      (∀ cause ∈ causes, faults cause) →
        faults (Members.noMemberFault (schemas.map Schema.typeName) value path causes))
    (nested : ∀ schemas, step = .members schemas → ∀ schema ∈ schemas,
      (members.kind schema).result? = some .union → faults (.located path .nestedUnion))
    (kinds : ∀ schemas, step = .members schemas → ∀ schema ∈ schemas,
      (members.kind schema).EndsWithin faults halts)
    (each : ∀ schema input place inside,
      step.Calls value path scope schema input place inside →
        (members.validate schema input place inside).EndsWithin faults halts) :
    (step.run host members settings value path scope).EndsWithin faults halts := by
  cases step with
  | check condition =>
    rw [run, Check.run]
    cases condition.objection? host value path scope with
    | none => exact .pure none
    | some reason => exact own (.inr rfl) reason
  | keys schema =>
    cases value with
    | object entries =>
      have all := Members.keys_endsWithin fun entry listed =>
        each schema (some (.string entry.1)) (path.key entry.1) scope (.key listed)
      exact all.bind fun _ _ => .pure none
    | _ => exact .pure none
  | elements schema =>
    cases value with
    | array items =>
      have all : (members.elements schema path scope 0 items).EndsWithin faults halts := by
        apply Members.elements_endsWithin
        intro place item found
        rw [Nat.zero_add]
        exact each schema (some item) (path.index place) scope (.element found)
      exact all.bind fun _ _ => .pure _
    | _ => exact .pure none
  | values schema =>
    cases value with
    | object entries =>
      have all := Members.values_endsWithin fun entry listed =>
        each schema (some entry.2) (path.key entry.1) scope (.value listed)
      exact all.bind fun _ _ => .pure _
    | _ => exact .pure none
  | fields declared =>
    rw [run, runFields]
    cases given : value.fields? with
    | none => exact .pure none
    | some input =>
      dsimp only
      split
      · rename_i refused
        simp only [Bool.and_eq_true] at refused
        exact own (.inl refused.1.2) _
      · have all := Members.fields_endsWithin (fun field listed =>
          each field.2 (input.lookup field.1) (path.key field.1) (scope.withCurrent value)
            (.field listed given)) []
        refine all.bind fun _ _ => ?_
        cases value <;> exact .pure _
  | positions schemas =>
    cases value with
    | array items =>
      rw [run, runPositions]
      split
      · rename_i refused
        exact own (.inl (Bool.and_eq_true_iff.mp refused).1) _
      · have all : (members.positions path scope 0 schemas items).EndsWithin faults halts := by
          apply Members.positions_endsWithin
          intro place schema found
          rw [Nat.zero_add]
          exact each schema items[place]? (path.index place) scope (.position found)
        exact all.bind fun _ _ => .pure _
    | _ => exact .pure none
  | members schemas =>
    exact Members.firstOf_endsWithin (kinds schemas rfl)
      (fun schema listed => each schema (some value) path scope (.member listed))
      (nested schemas rfl) (fun strict => united strict schemas rfl) (List.forall_mem_nil _)

/-- Where one step at most can rebuild, those after one that can do so cannot. -/
theorem checks_of_single {step : Step κ} {rest : List (Step κ)}
    (single : ((step :: rest).filter fun step => step.role == .rebuild).length ≤ 1)
    (rebuilds : step.role = .rebuild) : ∀ other ∈ rest, other.role = .check := by
  rw [List.filter_cons_of_pos (by rw [rebuilds]; rfl), List.length_cons] at single
  have none : (rest.filter fun step => step.role == .rebuild) = [] :=
    List.length_eq_zero_iff.mp (by omega)
  intro other listed
  have differs := List.filter_eq_nil_iff.mp none other listed
  cases own : other.role with
  | check => rfl
  | rebuild =>
    rw [own] at differs
    exact absurd rfl differs

end Step

namespace Body

variable {host : Host κ} {members : Members κ} {settings : Settings κ}

/-- Steps of which one at most can rebuild end within bounds when each of them does with the value
as it was at first, and those that cannot rebuild do with every value. -/
theorem takeSteps_endsWithin {steps : List (Step κ)} {value : Value}
    (single : (steps.filter fun step => step.role == .rebuild).length ≤ 1)
    (each : ∀ step ∈ steps, ∀ given, given = value ∨ step.role = .check →
      (step.run host members settings given path scope).EndsWithin faults halts) :
    (takeSteps host members settings path scope steps value).EndsWithin faults halts := by
  induction steps generalizing value with
  | nil => exact .pure value
  | cons step rest ih =>
    obtain ⟨first, later⟩ := List.forall_mem_cons.mp each
    have fewer : (rest.filter fun step => step.role == .rebuild).length ≤ 1 :=
      Nat.le_trans ((List.sublist_cons_self step rest).filter _).length_le single
    rw [takeSteps]
    split
    · exact ih fewer later
    · refine (first value (.inl rfl)).bind fun replaced accepted => ih fewer ?_
      cases role : step.role with
      | check =>
        obtain rfl := Step.run_role_check_accepted role accepted
        exact later
      | rebuild =>
        -- The value is a new one, but no other step rebuilds it.
        intro other listed given _
        exact later other listed given (.inr (Step.checks_of_single single role other listed))

/-- Steps end within bounds when each of them that is taken does with every value. -/
theorem takeSteps_endsWithin_of_each {steps : List (Step κ)} {value : Value}
    (each : ∀ step ∈ steps, scope.isStrict = true ∨ step.role = .rebuild → ∀ given,
      (step.run host members settings given path scope).EndsWithin faults halts) :
    (takeSteps host members settings path scope steps value).EndsWithin faults halts := by
  induction steps generalizing value with
  | nil => exact .pure value
  | cons step rest ih =>
    obtain ⟨first, later⟩ := List.forall_mem_cons.mp each
    rw [takeSteps]
    split
    · exact ih later
    · rename_i taken
      exact (first (Step.due_of_taken taken) value).bind fun _ _ => ih later

/-- A validation ends within bounds when its steps do with what was received, and its own faults,
all of which are those of strict validation, are allowed. -/
theorem validate_endsWithin {body : Body κ} {value : Option Value}
    (own : scope.isStrict = true → ∀ reason, faults (.located path reason))
    (taken : ∀ given, (receive host body.settings value path scope).result? = some (some given) →
      given ≠ .null →
        (takeSteps host members body.settings path scope body.steps given).EndsWithin
          faults halts) :
    (body.validate host members value path scope).EndsWithin faults halts := by
  have received : (receive host body.settings value path scope).EndsWithin faults halts := by
    cases value with
    | none =>
      rw [receive]
      split
      · rename_i refused
        exact own (Bool.and_eq_true_iff.mp refused).2 .missing
      · exact .pure _
    | some given =>
      have allowed : (if body.settings.never && scope.isStrict then
          .reject (.located path .neverUsed) else pure (some given) :
            Run (Option Value)).EndsWithin faults halts := by
        split
        · rename_i refused
          exact own (Bool.and_eq_true_iff.mp refused).2 .neverUsed
        · exact .pure _
      rw [receive]
      cases body.settings.deprecated with
      | none => exact allowed
      | some message => exact (Run.EndsWithin.note _).bind fun _ _ => allowed
  refine received.bind fun outcome arrived => ?_
  cases outcome with
  | none => exact .pure none
  | some given =>
    dsimp only
    cases absent : given.isNull with
    | true =>
      rw [if_pos rfl]
      split
      · exact .pure _
      · rename_i refused
        rw [Bool.or_eq_true, not_or] at refused
        exact own (by simpa using refused.2) .nullValue
    | false =>
      have defined := Value.isNull_eq_false_iff.mp absent
      rw [if_neg Bool.false_ne_true, process]
      refine Run.EndsWithin.bind ?_ fun _ _ => .pure _
      split
      · rename_i refused
        exact own (Bool.and_eq_true_iff.mp refused).1 _
      · exact (taken given arrived defined).bind fun _ _ => .pure _

end Body

end Assay
