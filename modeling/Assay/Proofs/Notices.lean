import Assay.Proofs.Termination

/-!
# Notices of deprecation

A value is made of parts, each held to a schema at a place of its own: the items of an array, the
values of an object, what is given for declared fields and positions. A tour of parts enters each of
them before its own parts and those before the next one (`Tour`), so it lists the places that schemas
lead to in the value (`Tour.mem_iff`), once each (`Tour.nodup`).

A validation that ends with a result has met these places and no others, in this order, and has given
the notices of those that are deprecated (`Schema.validateAt_notices`). It is put together from runs
that tell of their parts (`Run.Tells`): one after the other they tell of all of them.
-/
namespace Assay

variable {κ : Type}

/-- A value that is not nested has neither items nor fields. -/
theorem Value.empty_of_height {value : Value} (flat : value.height = 0) :
    value.array?.getD [] = [] ∧ value.object?.getD [] = [] ∧ ∀ name, value.field? name = none := by
  cases value with
  | array items =>
    cases items with
    | nil => exact ⟨rfl, rfl, fun _ => rfl⟩
    | cons item rest => simp [height, itemsHeight] at flat
  | object fields | inst _ fields =>
    cases fields with
    | nil => exact ⟨rfl, rfl, fun _ => rfl⟩
    | cons entry rest => simp [height, fieldsHeight] at flat
  | _ => exact ⟨rfl, rfl, fun _ => rfl⟩

/-! ## Places in a value -/

/-- A value held to a schema at a place. -/
structure Part (κ : Type) where
  /-- What the value is held to. -/
  schema : Schema κ
  /-- The value. -/
  value : Value
  /-- Where the value is. -/
  path : Path

/-- The part that input is, if it is defined. -/
def Part.ofInput (schema : Schema κ) (input : Option Value) (path : Path) : List (Part κ) :=
  input.toList.map fun value => ⟨schema, value, path⟩

/-- The parts of a value that a step hands on, in the order of indices, keys or declarations. -/
def Step.parts (value : Value) (path : Path) : Step κ → List (Part κ)
  | elements schema =>
    (value.array?.getD []).zipIdx.map fun item => ⟨schema, item.1, path.index item.2⟩
  | values schema => (value.object?.getD []).map fun entry => ⟨schema, entry.2, path.key entry.1⟩
  | fields declared =>
    declared.flatMap fun field => Part.ofInput field.2 (value.field? field.1) (path.key field.1)
  | positions schemas =>
    (schemas.zip (value.array?.getD [])).zipIdx.map fun pair =>
      ⟨pair.1.1, pair.1.2, path.index pair.2⟩
  | _ => []

/-- The parts of a value that the steps of a body hand on. -/
def Body.parts (body : Body κ) (value : Value) (path : Path) : List (Part κ) :=
  body.steps.flatMap (Step.parts value path)

/-- A place with the body that describes the value there. -/
structure Location (κ : Type) where
  /-- Where the value is. -/
  path : Path
  /-- What describes the value. -/
  body : Body κ

/-- The notice of a place that is deprecated. -/
def Location.notice? (location : Location κ) : Option Event :=
  location.body.settings.deprecated.map (.deprecated location.path)

/-- The locations of some parts and all parts inside them, depth first. -/
inductive Tour (host : Host κ) : List (Part κ) → List (Location κ) → Prop
  /-- Nothing is left. -/
  | done : Tour host [] []
  /-- A part is met before its own parts, and these before the parts after it. -/
  | enter {body : Body κ} {value : Value} {path : Path} {rest : List (Part κ)}
      {locations : List (Location κ)}
      (further : Tour host (body.parts value path ++ rest) locations) :
      Tour host (⟨.built body, value, path⟩ :: rest) (⟨path, body⟩ :: locations)
  /-- A name is looked up. -/
  | lookUp {name : String} {target : Schema κ} {value : Value} {path : Path}
      {rest : List (Part κ)} {locations : List (Location κ)}
      (found : host.definitions name = .ok target)
      (further : Tour host (⟨target, value, path⟩ :: rest) locations) :
      Tour host (⟨.deferred name, value, path⟩ :: rest) locations

/-- The schema leads to the location in a value that is held to it at a place. -/
inductive Schema.Locates (host : Host κ) : Schema κ → Value → Path → Location κ → Prop
  /-- The value itself is at the place. -/
  | here (body : Body κ) (value : Value) (path : Path) :
      Locates host (.built body) value path ⟨path, body⟩
  /-- A part of it leads further. -/
  | part {body : Body κ} {value : Value} {path : Path} {part : Part κ} {location : Location κ}
      (handed : part ∈ body.parts value path)
      (further : Locates host part.schema part.value part.path location) :
      Locates host (.built body) value path location
  /-- What a name stands for leads there. -/
  | target {name : String} {target : Schema κ} {value : Value} {path : Path}
      {location : Location κ} (found : host.definitions name = .ok target)
      (further : Locates host target value path location) :
      Locates host (.deferred name) value path location

namespace Tour

variable {host : Host κ} {parts rest : List (Part κ)} {locations later : List (Location κ)}

/-- Parts are toured one after the other. -/
theorem append (first : Tour host parts locations) (second : Tour host rest later) :
    Tour host (parts ++ rest) (locations ++ later) := by
  induction first with
  | done => exact second
  | enter _ ih =>
    rw [List.append_assoc] at ih
    exact .enter ih
  | lookUp found _ ih => exact .lookUp found ih

/-- There is one tour of parts at most. -/
theorem unique (first : Tour host parts locations) (second : Tour host parts later) :
    locations = later := by
  induction first generalizing later with
  | done =>
    cases second
    rfl
  | enter _ ih =>
    cases second with
    | enter further => rw [ih further]
  | lookUp found _ ih =>
    cases second with
    | lookUp again further =>
      obtain rfl := Except.ok.inj (found.symm.trans again)
      exact ih further

/-- A tour meets the locations that the schemas of the parts lead to. -/
theorem mem_iff (tour : Tour host parts locations) {location : Location κ} :
    location ∈ locations ↔
      ∃ part ∈ parts, part.schema.Locates host part.value part.path location := by
  induction tour with
  | done => simp
  | @enter body value path rest locations _ ih =>
    rw [List.mem_cons, ih, List.exists_mem_cons_iff]
    constructor
    · rintro (rfl | ⟨part, listed, leads⟩)
      · exact .inl (.here body value path)
      · rcases List.mem_append.mp listed with inner | outer
        · exact .inl (.part inner leads)
        · exact .inr ⟨part, outer, leads⟩
    · rintro (leads | ⟨part, listed, leads⟩)
      · cases leads with
        | here => exact .inl rfl
        | part handed further => exact .inr ⟨_, List.mem_append_left _ handed, further⟩
      · exact .inr ⟨part, List.mem_append_right _ listed, leads⟩
  | @lookUp name target value path rest locations found _ ih =>
    rw [ih, List.exists_mem_cons_iff, List.exists_mem_cons_iff]
    refine or_congr_left ⟨fun leads => .target found leads, fun leads => ?_⟩
    cases leads with
    | target again further =>
      obtain rfl := Except.ok.inj (found.symm.trans again)
      exact further

end Tour

/-! ## Runs that tell of parts -/

/-- If the run has a result, its events are the notices of a tour of the parts. -/
def Run.Tells {α : Type} (host : Host κ) (parts : List (Part κ)) (run : Run α) : Prop :=
  ∀ result, run.result? = some result →
    ∃ locations, Tour host parts locations ∧ run.events = locations.filterMap Location.notice?

namespace Run.Tells

variable {α β : Type} {host : Host κ} {parts rest : List (Part κ)}

/-- A run that only accepts tells of nothing. -/
theorem pure (result : α) : Tells host [] (pure result : Run α) := fun _ _ => ⟨[], .done, rfl⟩

/-- A run without a result may be said to tell of anything. -/
theorem of_none {run : Run α} (fails : run.result? = none) : Tells host parts run := by
  intro result accepted
  rw [fails] at accepted
  cases accepted

/-- Where there are no parts, a run that tells of nothing tells of them. -/
theorem of_parts_nil {run : Run α} (bare : parts = []) (tells : Tells host [] run) :
    Tells host parts run := by
  rwa [bare]

/-- A run after another one tells of further parts. -/
theorem bind {run : Run α} {next : α → Run β} (head : Tells host parts run)
    (tail : ∀ result, run.result? = some result → Tells host rest (next result)) :
    Tells host (parts ++ rest) (run >>= next) := by
  intro final accepted
  rw [result?_bind, Option.bind_eq_some_iff] at accepted
  obtain ⟨result, reached, ended⟩ := accepted
  obtain ⟨locations, first, told⟩ := head result reached
  obtain ⟨later, second, also⟩ := tail result reached final ended
  refine ⟨locations ++ later, first.append second, ?_⟩
  rw [events_bind_of_result reached, told, also, List.filterMap_append]

/-- A last change of the result tells of no further parts. -/
theorem bind_pure {run : Run α} (head : Tells host parts run) (change : α → β) :
    Tells host parts (run >>= fun result => Pure.pure (change result)) := by
  have both := head.bind fun result _ => pure (change result)
  rwa [List.append_nil] at both

/-- What tells of a part held to what a name stands for tells of the part held to the name. -/
theorem lookUp {run : Run α} {name : String} {target : Schema κ} {input : Option Value}
    {path : Path} (found : host.definitions name = .ok target)
    (tells : Tells host (Part.ofInput target input path) run) :
    Tells host (Part.ofInput (.deferred name) input path) run := by
  intro result accepted
  obtain ⟨locations, tour, told⟩ := tells result accepted
  cases input with
  | none => exact ⟨locations, tour, told⟩
  | some value => exact ⟨locations, .lookUp found tour, told⟩

/-- A run that gives the notice of a location tells of it before the parts inside it. -/
theorem enter {run : Run α} {next : α → Run β} {body : Body κ} {value : Value} {path : Path}
    (noted : ∀ result, run.result? = some result →
      run.events = (Location.notice? ⟨path, body⟩).toList)
    (inside : ∀ result, run.result? = some result →
      Tells host (body.parts value path) (next result)) :
    Tells host [⟨.built body, value, path⟩] (run >>= next) := by
  intro final accepted
  rw [result?_bind, Option.bind_eq_some_iff] at accepted
  obtain ⟨result, reached, ended⟩ := accepted
  obtain ⟨locations, tour, told⟩ := inside result reached final ended
  refine ⟨⟨path, body⟩ :: locations, .enter (by rwa [List.append_nil]), ?_⟩
  rw [events_bind_of_result reached, noted result reached, told, List.filterMap_cons]
  cases Location.notice? (⟨path, body⟩ : Location κ) <;> rfl

end Run.Tells

/-! ## What validations tell of -/

/-- The body rebuilds values once at most, hands on neither keys nor a value to one of several
members, declares no field twice, and has a default that is neither computed nor nested. -/
structure Body.Direct (body : Body κ) : Prop extends body.Modest where
  /-- Keys are not held to a schema. -/
  keyless : ∀ schema, .keys schema ∉ body.steps
  /-- There is no choice of members. -/
  choiceless : ∀ schemas, .members schemas ∉ body.steps
  /-- The fields that it declares have different names. -/
  distinct : ∀ declared, .fields declared ∈ body.steps → (declared.map Prod.fst).Nodup

variable {host : Host κ} {members : Members κ} {settings : Settings κ} {path : Path} {scope : Scope}

/-- Whatever is validated by the schema tells of the part that it is, if it is defined. -/
def Members.Tell (members : Members κ) (host : Host κ) (schema : Schema κ) : Prop :=
  ∀ input path scope,
    (members.validate schema input path scope).Tells host (Part.ofInput schema input path)

namespace Members

variable {schema : Schema κ}

/-- The items of an array tell of themselves in order. -/
theorem elements_tells (tell : members.Tell host schema) (index : Nat) (items : List Value) :
    (members.elements schema path scope index items).Tells host
      ((items.zipIdx index).map fun item => ⟨schema, item.1, path.index item.2⟩) := by
  induction items generalizing index with
  | nil => exact .pure []
  | cons item rest ih =>
    exact (tell (some item) (path.index index) scope).bind fun _ _ => (ih (index + 1)).bind_pure _

/-- The values of an object tell of themselves in order. -/
theorem values_tells (tell : members.Tell host schema) (entries : List (String × Value)) :
    (members.values schema path scope entries).Tells host
      (entries.map fun entry => ⟨schema, entry.2, path.key entry.1⟩) := by
  induction entries with
  | nil => exact .pure []
  | cons entry rest ih =>
    exact (tell (some entry.2) (path.key entry.1) scope).bind fun _ _ => ih.bind_pure _

/-- Declared fields tell of those that are given, in the order of declaration. -/
theorem fields_tells {declared : List (String × Schema κ)}
    (tell : ∀ field ∈ declared, members.Tell host field.2) (input output : List (String × Value)) :
    (members.fields input path scope declared output).Tells host
      (declared.flatMap fun field =>
        Part.ofInput field.2 (input.lookup field.1) (path.key field.1)) := by
  induction declared generalizing output with
  | nil => exact .pure output
  | cons field rest ih =>
    obtain ⟨here, later⟩ := List.forall_mem_cons.mp tell
    exact (here (input.lookup field.1) (path.key field.1) scope).bind fun _ _ => ih later _

/-- Positions tell of the items that are there, in order. -/
theorem positions_tells {schemas : List (Schema κ)} (tell : ∀ schema ∈ schemas,
    members.Tell host schema) (index : Nat) (items : List Value) :
    (members.positions path scope index schemas items).Tells host
      (((schemas.zip items).zipIdx index).map fun pair =>
        ⟨pair.1.1, pair.1.2, path.index pair.2⟩) := by
  induction schemas generalizing index items with
  | nil => exact .pure []
  | cons schema rest ih =>
    obtain ⟨here, later⟩ := List.forall_mem_cons.mp tell
    cases items with
    | nil =>
      -- Nothing is there for this position and the ones after it.
      have further := ih later (index + 1) []
      rw [List.zip_nil_right] at further ⊢
      exact (here none (path.index index) scope).bind fun _ _ => further.bind_pure _
    | cons item others =>
      exact (here (some item) (path.index index) scope).bind fun _ _ =>
        (ih later (index + 1) others).bind_pure _

end Members

namespace Step

/-- A step that can only refuse hands on no parts. -/
theorem parts_of_check {step : Step κ} (role : step.role = .check) (value : Value) (path : Path) :
    step.parts value path = [] := by
  cases step with
  | check | keys => rfl
  | _ => cases role

/-- Steps that can only refuse hand on no parts. -/
theorem flatMap_parts_of_checks {steps : List (Step κ)} (checks : ∀ step ∈ steps, step.role = .check)
    (value : Value) (path : Path) : steps.flatMap (Step.parts value path) = [] :=
  List.flatMap_eq_nil_iff.mpr fun step listed => parts_of_check (checks step listed) value path

/-- A step that is left out can only refuse. -/
theorem role_of_omitted {step : Step κ} {value : Value}
    (omitted : ((!scope.isStrict && step.role == .check) || step.isSkipped settings value) = true) :
    step.role = .check := by
  rcases Bool.or_eq_true_iff.mp omitted with lenient | skipped
  · exact eq_of_beq (Bool.and_eq_true_iff.mp lenient).2
  · have content := isAboutContent_of_isSkipped skipped
    cases step with
    | check => rfl
    | _ => cases content

/-- A value without items and fields has no parts. -/
theorem parts_of_empty {value : Value} (itemless : value.array?.getD [] = [])
    (bare : value.object?.getD [] = []) (fieldless : ∀ name, value.field? name = none)
    (step : Step κ) (path : Path) : step.parts value path = [] := by
  cases step with
  | elements => rw [parts, itemless, List.zipIdx_nil, List.map_nil]
  | values => rw [parts, bare, List.map_nil]
  | fields =>
    rw [parts, List.flatMap_eq_nil_iff]
    intro field _
    rw [fieldless]
    rfl
  | positions => rw [parts, itemless, List.zip_nil_right, List.zipIdx_nil, List.map_nil]
  | _ => rfl

/-- A step that holds no keys to a schema and offers no members tells of the parts that it hands
on. -/
theorem run_tells {step : Step κ} (keyless : ∀ schema, step ≠ .keys schema)
    (choiceless : ∀ schemas, step ≠ .members schemas)
    (tell : ∀ schema ∈ step.schemas, members.Tell host schema) (value : Value) :
    (step.run host members settings value path scope).Tells host (step.parts value path) := by
  cases step with
  | check condition =>
    rw [run, Check.run]
    cases condition.objection? host value path scope with
    | none => exact .pure none
    | some reason => exact .of_none rfl
  | keys schema => exact absurd rfl (keyless schema)
  | elements schema =>
    cases value with
    | array items =>
      exact (Members.elements_tells (tell schema List.mem_cons_self) 0 items).bind_pure _
    | _ => exact .pure none
  | values schema =>
    cases value with
    | object entries =>
      exact (Members.values_tells (tell schema List.mem_cons_self) entries).bind_pure _
    | _ => exact .pure none
  | fields declared =>
    cases given : value.fields? with
    | none =>
      have absent : (fields declared).parts value path = [] := by
        rw [parts, List.flatMap_eq_nil_iff]
        intro field _
        rw [Value.field?, given]
        rfl
      rw [run, runFields, given, absent]
      exact .pure none
    | some input =>
      have found : (fields declared).parts value path = declared.flatMap fun field =>
          Part.ofInput field.2 (input.lookup field.1) (path.key field.1) := by
        simp only [parts, Value.field?, given, Option.bind_some]
      rw [run, runFields, given, found]
      dsimp only
      split
      · exact .of_none rfl
      · have each : ∀ field ∈ declared, members.Tell host field.2 :=
          fun field listed => tell field.2 (List.mem_map_of_mem listed)
        have all : (members.fields input path (scope.withCurrent value) declared []).Tells host
            (declared.flatMap fun field =>
              Part.ofInput field.2 (input.lookup field.1) (path.key field.1)) :=
          Members.fields_tells each input []
        cases value <;> exact all.bind_pure _
  | positions schemas =>
    cases value with
    | array items =>
      rw [run, runPositions]
      split
      · exact .of_none rfl
      · exact (Members.positions_tells tell 0 items).bind_pure _
    | _ =>
      refine Run.Tells.of_parts_nil ?_ (.pure none)
      simp [parts, Value.array?]
  | members schemas => exact absurd rfl (choiceless schemas)

end Step

namespace Body

/-- Steps of which one at most can rebuild tell of the parts that they hand on. -/
theorem takeSteps_tells {steps : List (Step κ)}
    (single : (steps.filter fun step => step.role == .rebuild).length ≤ 1)
    (keyless : ∀ schema, .keys schema ∉ steps) (choiceless : ∀ schemas, .members schemas ∉ steps)
    (tell : ∀ step ∈ steps, ∀ schema ∈ step.schemas, members.Tell host schema) (value : Value) :
    (takeSteps host members settings path scope steps value).Tells host
      (steps.flatMap (Step.parts value path)) := by
  induction steps generalizing value with
  | nil => exact .pure value
  | cons step rest ih =>
    obtain ⟨here, later⟩ := List.forall_mem_cons.mp tell
    have fewer : (rest.filter fun step => step.role == .rebuild).length ≤ 1 :=
      Nat.le_trans ((List.sublist_cons_self step rest).filter _).length_le single
    have further := ih fewer (fun schema listed => keyless schema (List.mem_cons_of_mem _ listed))
      (fun schemas listed => choiceless schemas (List.mem_cons_of_mem _ listed)) later
    have ran : (step.run host members settings value path scope).Tells host
        (step.parts value path) :=
      Step.run_tells (fun schema same => keyless schema (same ▸ List.mem_cons_self))
        (fun schemas same => choiceless schemas (same ▸ List.mem_cons_self)) here value
    rw [takeSteps, List.flatMap_cons]
    split
    · rename_i omitted
      rw [Step.parts_of_check (Step.role_of_omitted omitted), List.nil_append]
      exact further value
    · refine ran.bind fun replaced accepted => ?_
      cases role : step.role with
      | check =>
        obtain rfl := Step.run_role_check_accepted role accepted
        exact further value
      | rebuild =>
        -- The value is a new one, but the steps left hand on no part of any value.
        have checks := Step.checks_of_single single role
        rw [Step.flatMap_parts_of_checks checks value,
          ← Step.flatMap_parts_of_checks checks (replaced.getD value) path]
        exact further (replaced.getD value)

/-- A direct body whose steps' schemas tell of their parts tells of its own parts. -/
theorem process_tells {body : Body κ} (direct : body.Direct)
    (tell : ∀ step ∈ body.steps, ∀ schema ∈ step.schemas, members.Tell host schema)
    (value : Value) :
    (body.process host members value path scope).Tells host (body.parts value path) := by
  rw [process]
  split
  · exact .of_none rfl
  · exact (takeSteps_tells direct.single direct.keyless direct.choiceless tell value).bind_pure _

/-- The default of a direct body has no parts. -/
theorem Direct.parts_default {body : Body κ} (direct : body.Direct) {value : Value}
    (supplied : body.settings.default.resolve host path scope = some value) :
    body.parts value path = [] := by
  obtain ⟨itemless, bare, fieldless⟩ := Value.empty_of_height (direct.height_default supplied)
  exact List.flatMap_eq_nil_iff.mpr fun step _ =>
    Step.parts_of_empty itemless bare fieldless step path

/-- Receiving defined input gives the notice of its place. -/
theorem receive_events (body : Body κ) (value : Value) :
    (receive host body.settings (some value) path scope).events =
      (Location.notice? ⟨path, body⟩).toList := by
  rw [receive, Location.notice?]
  cases body.settings.never && scope.isStrict <;> cases body.settings.deprecated <;> rfl

/-- A validation by a direct body whose steps' schemas tell of their parts tells of the part that the
input is, if it is defined. -/
theorem validate_tells {body : Body κ} (direct : body.Direct)
    (tell : ∀ step ∈ body.steps, ∀ schema ∈ step.schemas, members.Tell host schema)
    (input : Option Value) :
    (body.validate host members input path scope).Tells host
      (Part.ofInput (.built body) input path) := by
  -- What is received tells of its own parts, be it the input or the default.
  have received : ∀ value : Value, Run.Tells host (body.parts value path)
      (if value.isNull then
        if body.settings.nullable || !scope.isStrict then pure (some .null)
        else .reject (.located path .nullValue)
      else
        body.process host members value path scope >>= fun result => pure (some result)) := by
    intro value
    cases absent : value.isNull with
    | true =>
      obtain rfl := Value.isNull_iff.mp absent
      have bare : body.parts .null path = [] := List.flatMap_eq_nil_iff.mpr fun step _ =>
        Step.parts_of_empty rfl rfl (fun _ => rfl) step path
      rw [bare, if_pos rfl]
      split
      · exact .pure _
      · exact .of_none rfl
    | false =>
      rw [if_neg Bool.false_ne_true]
      exact (process_tells direct tell value).bind_pure _
  rw [validate]
  cases input with
  | none =>
    have silent : (receive host body.settings none path scope).Tells host [] := by
      rw [receive]
      split
      · exact .of_none rfl
      · exact .pure _
    refine silent.bind fun result arrived => ?_
    cases result with
    | none => exact .pure none
    | some value =>
      have supplied := (receive_accepted arrived).1
      rw [Option.none_or] at supplied
      rw [← direct.parts_default supplied.symm]
      exact received value
  | some value =>
    refine .enter (fun _ _ => receive_events body value) fun result arrived => ?_
    obtain rfl := (receive_accepted arrived).1
    exact received value

end Body

/-- A direct schema tells of the part that the input is, if it is defined, to every depth. -/
theorem Schema.validateAt_tells {depth : Nat} {schema : Schema κ}
    (direct : schema.Throughout host Body.Direct) : (membersAt host depth).Tell host schema := by
  induction depth generalizing schema with
  | zero => exact fun _ _ _ => .of_none rfl
  | succ depth ih =>
    intro input path scope
    cases schema with
    | built body =>
      exact Body.validate_tells direct.here
        (fun step taken inner handed => ih (direct.member taken handed)) input
    | deferred name =>
      change ((deferred name).validateAt host (depth + 1) input path scope).Tells host _
      rw [validateAt]
      cases defined : host.definitions name with
      | error misuse => exact .of_none rfl
      | ok target => exact .lookUp defined (ih (direct.target defined) input path scope)

/-! ## Places once each -/

namespace Value

mutual

/-- The keys of objects and instances ascend, at every depth. -/
def Ascends : Value → Prop
  | array items => ItemsAscend items
  | object fields | inst _ fields => Entries.Sorted fields ∧ FieldsAscend fields
  | _ => True

/-- Keys ascend in every item. -/
def ItemsAscend : List Value → Prop
  | [] => True
  | item :: rest => Ascends item ∧ ItemsAscend rest

/-- Keys ascend in the value of every field. -/
def FieldsAscend : List (String × Value) → Prop
  | [] => True
  | (_, value) :: rest => Ascends value ∧ FieldsAscend rest

end

/-- Keys ascend in the items of a value in which they do. -/
theorem Ascends.items {value : Value} (ascends : value.Ascends) :
    ∀ item ∈ value.array?.getD [], item.Ascends := by
  cases value with
  | array items =>
    change ItemsAscend items at ascends
    change ∀ item ∈ items, item.Ascends
    induction items with
    | nil => exact List.forall_mem_nil _
    | cons item rest ih => exact List.forall_mem_cons.mpr ⟨ascends.1, ih ascends.2⟩
  | _ => exact List.forall_mem_nil _

/-- Keys ascend in the values of fields where they do in all of them. -/
theorem FieldsAscend.field {fields : List (String × Value)} (ascend : FieldsAscend fields) :
    ∀ entry ∈ fields, entry.2.Ascends := by
  induction fields with
  | nil => exact List.forall_mem_nil _
  | cons entry rest ih => exact List.forall_mem_cons.mpr ⟨ascend.1, ih ascend.2⟩

/-- The fields of an object in which keys ascend do so, and so do those inside them. -/
theorem Ascends.entries {value : Value} (ascends : value.Ascends) :
    Entries.Sorted (value.object?.getD []) ∧
      ∀ entry ∈ value.object?.getD [], entry.2.Ascends := by
  cases value with
  | object fields => exact ⟨ascends.1, ascends.2.field⟩
  | _ => exact ⟨.nil, List.forall_mem_nil _⟩

/-- Keys ascend in every field of a value in which they do. -/
theorem Ascends.field {value found : Value} {name : String} (ascends : value.Ascends)
    (present : value.field? name = some found) : found.Ascends := by
  obtain ⟨fields, given, led⟩ := Option.bind_eq_some_iff.mp present
  have listed : (name, found) ∈ fields := Entries.mem_of_lookup led
  cases value with
  | object held | inst cls held =>
    obtain rfl := Option.some.inj given
    exact ascends.2.field _ listed
  | _ => cases given

end Value

namespace Path

/-- Steps further from one place lead to different places. -/
theorem child_injective (path : Path) : Function.Injective path.child := by
  intro first second same
  have segments := List.append_cancel_left (congrArg Path.segments same)
  exact (List.cons.inj segments).1

/-- Keys lead to different places. -/
theorem key_injective (path : Path) : Function.Injective path.key :=
  fun _ _ same => Segment.key.inj (path.child_injective same)

/-- Indices lead to different places. -/
theorem index_injective (path : Path) : Function.Injective path.index :=
  fun _ _ same => Segment.index.inj (path.child_injective same)

/-- Neither place is the other or inside it. -/
def Apart (first second : Path) : Prop :=
  ¬ first.segments <+: second.segments ∧ ¬ second.segments <+: first.segments

/-- Different places one step further are apart. -/
theorem Apart.of_child {path first second : Path} {segment other : Segment}
    (here : first = path.child segment) (there : second = path.child other)
    (differ : first ≠ second) : first.Apart second := by
  subst here there
  have lengths : (path.child segment).segments.length = (path.child other).segments.length := by
    simp [child]
  constructor
  · intro inside
    exact differ (congrArg Path.mk (inside.eq_of_length lengths))
  · intro inside
    exact differ (congrArg Path.mk (inside.eq_of_length lengths.symm)).symm

/-- What is apart from a place is apart from those one step further. -/
theorem Apart.child {path other : Path} (apart : path.Apart other) (segment : Segment) :
    (path.child segment).Apart other := by
  obtain ⟨outside, around⟩ := apart
  refine ⟨fun inside => outside ((List.prefix_append _ _).trans inside), fun inside => ?_⟩
  rcases List.prefix_concat_iff.mp inside with same | further
  · exact outside (same ▸ List.prefix_append _ _)
  · exact around further

end Path

namespace Step

/-- A part that a step hands on is one step further, its schema is one that the step hands values on
to, and keys ascend in it where they do in the value. -/
theorem of_mem_parts {step : Step κ} {value : Value} {path : Path} {part : Part κ}
    (listed : part ∈ step.parts value path) :
    (∃ segment, part.path = path.child segment) ∧ part.schema ∈ step.schemas ∧
      (value.Ascends → part.value.Ascends) := by
  cases step with
  | elements schema =>
    obtain ⟨item, found, rfl⟩ := List.mem_map.mp listed
    exact ⟨⟨.index item.2, rfl⟩, List.mem_cons_self,
      fun ascends => ascends.items _ (List.fst_mem_of_mem_zipIdx found)⟩
  | values schema =>
    obtain ⟨entry, found, rfl⟩ := List.mem_map.mp listed
    exact ⟨⟨.key entry.1, rfl⟩, List.mem_cons_self, fun ascends => ascends.entries.2 entry found⟩
  | fields declared =>
    obtain ⟨field, declares, given⟩ := List.mem_flatMap.mp listed
    obtain ⟨found, present, rfl⟩ := List.mem_map.mp given
    exact ⟨⟨.key field.1, rfl⟩, List.mem_map_of_mem declares,
      fun ascends => ascends.field (Option.mem_toList.mp present)⟩
  | positions schemas =>
    obtain ⟨pair, found, rfl⟩ := List.mem_map.mp listed
    obtain ⟨declares, given⟩ := List.of_mem_zip (List.fst_mem_of_mem_zipIdx found)
    exact ⟨⟨.index pair.2, rfl⟩, declares, fun ascends => ascends.items _ given⟩
  | _ => cases listed

/-- The places of what is given for declared fields are among those of the declarations. -/
theorem fields_parts_sublist (declared : List (String × Schema κ)) (value : Value) (path : Path) :
    (((fields declared).parts value path).map Part.path).Sublist
      (declared.map fun field => path.key field.1) := by
  induction declared with
  | nil => exact .slnil
  | cons field rest ih =>
    have here : ((Part.ofInput field.2 (value.field? field.1) (path.key field.1)).map
        Part.path).Sublist [path.key field.1] := by
      cases value.field? field.1 with
      | none => exact List.nil_sublist _
      | some given => exact List.Sublist.refl _
    rw [parts, List.flatMap_cons, List.map_append]
    exact here.append ih

/-- The parts that a step hands on are at different places, if it declares no field twice and keys
ascend in the value. -/
theorem parts_nodup {step : Step κ} {value : Value} {path : Path} (ascends : value.Ascends)
    (distinct : ∀ declared, step = .fields declared → (declared.map Prod.fst).Nodup) :
    ((step.parts value path).map Part.path).Nodup := by
  have indexed : ∀ {α : Type} (items : List α),
      (items.zipIdx.map fun item => path.index item.2).Nodup := by
    intro α items
    have indices : (items.zipIdx.map Prod.snd).Nodup := by
      rw [List.zipIdx_map_snd]
      exact List.nodup_range'
    have places := indices.map path.index_injective
    rwa [List.map_map] at places
  cases step with
  | elements schema =>
    rw [parts, List.map_map]
    exact indexed (value.array?.getD [])
  | values schema =>
    have places := (Entries.keys_nodup ascends.entries.1).map path.key_injective
    rw [Entries.keys, List.map_map] at places
    rwa [parts, List.map_map]
  | fields declared =>
    have places := (distinct declared rfl).map path.key_injective
    rw [List.map_map] at places
    exact places.sublist (fields_parts_sublist declared value path)
  | positions schemas =>
    rw [parts, List.map_map]
    exact indexed (schemas.zip (value.array?.getD []))
  | _ => exact List.nodup_nil

/-- Of steps of which one at most can rebuild, all parts are handed on by one. -/
theorem flatMap_parts_of_single {steps : List (Step κ)}
    (single : (steps.filter fun step => step.role == .rebuild).length ≤ 1) (value : Value)
    (path : Path) :
    steps.flatMap (parts value path) = [] ∨
      ∃ step ∈ steps, steps.flatMap (parts value path) = step.parts value path := by
  induction steps with
  | nil => exact .inl rfl
  | cons step rest ih =>
    rw [List.flatMap_cons]
    cases role : step.role with
    | check =>
      have fewer : (rest.filter fun step => step.role == .rebuild).length ≤ 1 :=
        Nat.le_trans ((List.sublist_cons_self step rest).filter _).length_le single
      rw [parts_of_check role, List.nil_append]
      exact (ih fewer).imp_right List.exists_mem_cons_of_exists
    | rebuild =>
      rw [flatMap_parts_of_checks (checks_of_single single role), List.append_nil]
      exact .inr ⟨step, List.mem_cons_self, rfl⟩

end Step

/-- The parts of a value in which keys ascend are at different places under a direct body. -/
theorem Body.Direct.parts_nodup {body : Body κ} (direct : body.Direct) {value : Value}
    (ascends : value.Ascends) (path : Path) : ((body.parts value path).map Part.path).Nodup := by
  rcases Step.flatMap_parts_of_single direct.single value path with none | ⟨step, listed, same⟩
  · rw [parts, none]
    exact List.nodup_nil
  · rw [parts, same]
    exact Step.parts_nodup ascends fun declared fields => direct.distinct declared (fields ▸ listed)

/-- The parts of a value in which keys ascend are apart from one another under a direct body. -/
theorem Body.Direct.parts_apart {body : Body κ} (direct : body.Direct) {value : Value}
    (ascends : value.Ascends) (path : Path) :
    (body.parts value path).Pairwise fun first second => first.path.Apart second.path := by
  have differ := List.pairwise_map.mp (direct.parts_nodup ascends path)
  refine differ.imp_of_mem fun {first second} one two different => ?_
  obtain ⟨_, _, former⟩ := List.mem_flatMap.mp one
  obtain ⟨_, _, latter⟩ := List.mem_flatMap.mp two
  obtain ⟨segment, here⟩ := (Step.of_mem_parts former).1
  obtain ⟨other, there⟩ := (Step.of_mem_parts latter).1
  exact .of_child here there different

/-- A schema leads to locations at the place of the value or inside it. -/
theorem Schema.Locates.isPrefix {schema : Schema κ} {value : Value} {path : Path}
    {location : Location κ} (leads : schema.Locates host value path location) :
    path.segments <+: location.path.segments := by
  induction leads with
  | here => exact List.prefix_rfl
  | part handed _ ih =>
    obtain ⟨_, _, listed⟩ := List.mem_flatMap.mp handed
    obtain ⟨segment, further⟩ := (Step.of_mem_parts listed).1
    rw [further] at ih
    exact (List.prefix_append _ _).trans ih
  | target _ _ ih => exact ih

namespace Tour

variable {parts : List (Part κ)} {locations : List (Location κ)}

/-- A tour of parts apart from one another, held to direct schemas, meets every place once. -/
theorem nodup (tour : Tour host parts locations)
    (sound : ∀ part ∈ parts, part.schema.Throughout host Body.Direct ∧ part.value.Ascends)
    (apart : parts.Pairwise fun first second => first.path.Apart second.path) :
    (locations.map Location.path).Nodup := by
  induction tour with
  | done => exact List.nodup_nil
  | @enter body value path rest locations further ih =>
    obtain ⟨⟨direct, ascends⟩, others⟩ := List.forall_mem_cons.mp sound
    obtain ⟨beside, among⟩ := List.pairwise_cons.mp apart
    have inner : ∀ part ∈ body.parts value path, (∃ segment, part.path = path.child segment) ∧
        part.schema.Throughout host Body.Direct ∧ part.value.Ascends := by
      intro part listed
      obtain ⟨step, taken, handed⟩ := List.mem_flatMap.mp listed
      obtain ⟨place, schema, value⟩ := Step.of_mem_parts handed
      exact ⟨place, direct.member taken schema, value ascends⟩
    rw [List.map_cons, List.nodup_cons]
    constructor
    · -- What comes later is inside the parts, which are further, or beside them.
      intro again
      obtain ⟨location, met, same⟩ := List.mem_map.mp again
      obtain ⟨part, listed, leads⟩ := further.mem_iff.mp met
      have around := leads.isPrefix
      rw [same] at around
      rcases List.mem_append.mp listed with own | other
      · obtain ⟨⟨segment, place⟩, _⟩ := inner part own
        have longer := around.length_le
        rw [place] at longer
        simp only [Path.child, List.length_append, List.length_singleton] at longer
        omega
      · exact (beside part other).2 around
    · refine ih ?_ ?_
      · intro part listed
        rcases List.mem_append.mp listed with own | other
        · exact (inner part own).2
        · exact others part other
      · refine List.pairwise_append.mpr ⟨direct.here.parts_apart ascends path, among, ?_⟩
        intro own listed other later
        obtain ⟨⟨segment, place⟩, _⟩ := inner own listed
        rw [place]
        exact (beside other later).child segment
  | lookUp found _ ih =>
    obtain ⟨⟨direct, ascends⟩, others⟩ := List.forall_mem_cons.mp sound
    obtain ⟨beside, among⟩ := List.pairwise_cons.mp apart
    exact ih (List.forall_mem_cons.mpr ⟨⟨direct.target found, ascends⟩, others⟩)
      (List.pairwise_cons.mpr ⟨beside, among⟩)

end Tour

/-- The notices of an accepted validation by a direct schema are those of the locations that the
schema leads to in its input: in the order of a tour, which is the only one, each location once where
keys ascend in the input, and none where the input is undefined. -/
theorem Schema.validateAt_notices (host : Host κ) (depth : Nat) (schema : Schema κ)
    (direct : schema.Throughout host Body.Direct) (input : Option Value) (path : Path)
    (scope : Scope) (outcome : Option Value)
    (accepted : (schema.validateAt host depth input path scope).result? = some outcome) :
    ∃ locations, Tour host (Part.ofInput schema input path) locations ∧
      (schema.validateAt host depth input path scope).events =
        locations.filterMap Location.notice? ∧
      (∀ others, Tour host (Part.ofInput schema input path) others → others = locations) ∧
      (∀ location, location ∈ locations ↔
        ∃ value, input = some value ∧ schema.Locates host value path location) ∧
      (∀ value, input = some value → value.Ascends → (locations.map Location.path).Nodup) ∧
      (input = none → (schema.validateAt host depth input path scope).events = []) := by
  obtain ⟨locations, tour, told⟩ := validateAt_tells direct input path scope outcome accepted
  refine ⟨locations, tour, told, fun others other => other.unique tour, fun location => ?_,
    fun value given ascends => ?_, fun absent => ?_⟩
  · rw [tour.mem_iff]
    cases input <;> simp [Part.ofInput]
  · subst given
    exact tour.nodup (List.forall_mem_singleton.mpr ⟨direct, ascends⟩) (List.pairwise_singleton _ _)
  · subst absent
    cases tour
    exact told

/-! ## Records of an archive, an example -/

/-- Captions are texts or null, and should not be used any more. -/
def caption : Body Unit :=
  [.nullable true, .deprecate "Use tags instead."].foldl Body.refine (.ofKind .string)

/-- A host that knows captions by name. -/
def archive : Host Unit where
  callback _ _ _ := none
  compute _ _ _ := .null
  now := ⟨0, 0⟩
  definitions name := if name = "caption" then .ok (.built caption) else .error .noMembers

/-- Captions in a row. -/
def captions : Body Unit := (Body.ofKind .array).refine (.elements (.deferred "caption"))

/-- A record may have a caption of its own and some of its pages, and one of its author. -/
def record : Body Unit :=
  .shape [("own", .deferred "caption"), ("pages", .built captions), ("author", .deferred "caption")]

/-- A record with an own caption of null and two captioned pages, by no author. -/
def captioned : Value := .object [("own", .null), ("pages", .array [.string "a", .string "b"])]

/-- A record is direct throughout: its fields are named apart, and its captions have no steps. -/
theorem record_direct : (Schema.built record).Throughout archive Body.Direct := by
  have marked : (Schema.deferred "caption").Throughout archive Body.Direct := by
    refine .deferred (show archive.definitions "caption" = .ok (.built caption) from rfl)
      (.built ⟨.usual (Nat.zero_le 1) rfl, ?_, ?_, ?_⟩ ?_)
    all_goals exact fun _ listed => by cases listed
  have rowed : (Schema.built captions).Throughout archive Body.Direct := by
    refine .built ⟨.usual (Nat.le_refl 1) rfl, ?_, ?_, ?_⟩ fun step taken inner handed => ?_
    · intro schema listed
      cases List.mem_singleton.mp listed
    · intro schemas listed
      cases List.mem_singleton.mp listed
    · intro declared listed
      cases List.mem_singleton.mp listed
    · obtain rfl := List.mem_singleton.mp taken
      obtain rfl := List.mem_singleton.mp handed
      exact marked
  refine .built ⟨.usual (Nat.le_refl 1) rfl, ?_, ?_, ?_⟩ fun step taken inner handed => ?_
  · intro schema listed
    cases List.mem_singleton.mp listed
  · intro schemas listed
    cases List.mem_singleton.mp listed
  · intro declared listed
    obtain rfl := Step.fields.inj (List.mem_singleton.mp listed)
    simp
  · obtain rfl := List.mem_singleton.mp taken
    simp only [Step.schemas, List.map_cons, List.map_nil, List.mem_cons, List.not_mem_nil,
      or_false] at handed
    rcases handed with rfl | rfl | rfl
    · exact marked
    · exact rowed
    · exact marked

/-- The captioned record gives notice of its own caption and of those of its pages, and not of the
author's caption, which is left out. -/
theorem Schema.validateAt_notices_record :
    let run := (built record).validateAt archive 4 (some captioned) .root (.new .strict)
    (built record).Throughout archive Body.Direct ∧ captioned.Ascends ∧
      (∃ outcome, run.result? = some outcome) ∧
      run.events = [.deprecated (Path.root.key "own") "Use tags instead.",
        .deprecated ((Path.root.key "pages").index 0) "Use tags instead.",
        .deprecated ((Path.root.key "pages").index 1) "Use tags instead."] ∧
      ∃ locations, Tour archive [⟨.built record, captioned, .root⟩] locations ∧
        run.events = locations.filterMap Location.notice? ∧
        (locations.map Location.path).Nodup := by
  intro run
  have ascends : captioned.Ascends := by
    refine ⟨?_, trivial, ⟨trivial, trivial, trivial⟩, trivial⟩
    have before : "own" < "pages" := by decide
    exact .cons (List.forall_mem_singleton.mpr before) (List.pairwise_singleton _ _)
  obtain ⟨locations, tour, told, _, _, nodup, _⟩ := validateAt_notices archive 4 (.built record)
    record_direct (some captioned) .root (.new .strict) _ rfl
  exact ⟨record_direct, ascends, ⟨_, rfl⟩, rfl, locations, tour, told, nodup captioned rfl ascends⟩

end Assay
