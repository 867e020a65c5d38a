import Assay.Proofs.Calls
import Assay.Proofs.Presence

/-!
# The visits of a validation

A validation visits schemas, each with its input, at its place and in its surroundings (`Visit`). On a
visit the steps of the schema are taken one after the other, each with the value that the ones before
left (`Visit.Takes`), and the calls of these steps are the visits inside it. A validation asks for
nothing else: members that answer these calls alike make no difference (`Body.validate_determined`). So
runs that come about at every visit from those of the visits inside it are those of the validation
itself, whatever they are elsewhere (`Visit.run_determined`).

How a visit was come by is followed on the way (`Visit.Reaches`): whether it is that of a field, of a
value, of a key or of an item, and which object is around it. Unions and names hand the same value on
at the same place, so they change nothing of that. What is followed agrees with the path and the
surroundings, which the validation itself hands on (`Visit.Reaches.fits`).
-/
namespace Assay

variable {κ : Type} {host : Host κ} {members others : Members κ} {settings : Settings κ}
  {path : Path} {scope : Scope}

/-! ## What the answers of calls determine -/

/-- A run is continued alike by what is alike for its result. -/
theorem Run.bind_determined {α β : Type} {run : Run α} {next later : α → Run β}
    (alike : ∀ result, run.result? = some result → next result = later result) :
    run >>= next = run >>= later := by
  obtain ⟨events, verdict⟩ := run
  cases verdict with
  | accepted result =>
    change Run.andThen _ _ = Run.andThen _ _
    simp only [Run.andThen, alike result rfl]
  | _ => rfl

namespace Members

variable {schema : Schema κ}

/-- The items of an array are validated alike when each of them is. -/
theorem elements_determined {index : Nat} {items : List Value}
    (each : ∀ place item, items[place]? = some item →
      members.validate schema (some item) (path.index (index + place)) scope =
        others.validate schema (some item) (path.index (index + place)) scope) :
    members.elements schema path scope index items =
      others.elements schema path scope index items := by
  induction items generalizing index with
  | nil => rfl
  | cons item rest ih =>
    have first := each 0 item rfl
    have later : members.elements schema path scope (index + 1) rest =
        others.elements schema path scope (index + 1) rest := by
      apply ih
      intro place other found
      have moved : index + 1 + place = index + (place + 1) := by omega
      rw [moved]
      exact each (place + 1) other found
    rw [Nat.add_zero] at first
    rw [elements, elements, first, later]

/-- The values of an object are validated alike when each of them is. -/
theorem values_determined {entries : List (String × Value)}
    (each : ∀ entry ∈ entries, members.validate schema (some entry.2) (path.key entry.1) scope =
      others.validate schema (some entry.2) (path.key entry.1) scope) :
    members.values schema path scope entries = others.values schema path scope entries := by
  induction entries with
  | nil => rfl
  | cons entry rest ih =>
    obtain ⟨first, later⟩ := List.forall_mem_cons.mp each
    rw [values, values, first, ih later]

/-- The keys of an object are validated alike when each of them is. -/
theorem keys_determined {entries : List (String × Value)}
    (each : ∀ entry ∈ entries,
      members.validate schema (some (.string entry.1)) (path.key entry.1) scope =
        others.validate schema (some (.string entry.1)) (path.key entry.1) scope) :
    members.keys schema path scope entries = others.keys schema path scope entries := by
  induction entries with
  | nil => rfl
  | cons entry rest ih =>
    obtain ⟨first, later⟩ := List.forall_mem_cons.mp each
    rw [keys, keys, first, ih later]

/-- Declared fields are validated alike when each of them is. -/
theorem fields_determined {declared : List (String × Schema κ)} {input : List (String × Value)}
    (each : ∀ field ∈ declared,
      members.validate field.2 (input.lookup field.1) (path.key field.1) scope =
        others.validate field.2 (input.lookup field.1) (path.key field.1) scope)
    (output : List (String × Value)) :
    members.fields input path scope declared output =
      others.fields input path scope declared output := by
  induction declared generalizing output with
  | nil => rfl
  | cons field rest ih =>
    obtain ⟨first, later⟩ := List.forall_mem_cons.mp each
    rw [fields, fields, first]
    exact Run.bind_determined fun _ _ => ih later _

/-- Positions are validated alike when each of them is. -/
theorem positions_determined {index : Nat} {schemas : List (Schema κ)} {items : List Value}
    (each : ∀ place schema, schemas[place]? = some schema →
      members.validate schema items[place]? (path.index (index + place)) scope =
        others.validate schema items[place]? (path.index (index + place)) scope) :
    members.positions path scope index schemas items =
      others.positions path scope index schemas items := by
  induction schemas generalizing index items with
  | nil => rfl
  | cons schema rest ih =>
    have first := each 0 schema rfl
    have later : members.positions path scope (index + 1) rest items.tail =
        others.positions path scope (index + 1) rest items.tail := by
      apply ih
      intro place other found
      have moved : index + 1 + place = index + (place + 1) := by omega
      rw [moved, List.getElem?_tail]
      exact each (place + 1) other found
    rw [Nat.add_zero, ← List.head?_eq_getElem?] at first
    rw [positions, positions, first, later]

/-- The members of a union are tried alike when each of them is. -/
theorem firstOf_determined {names : List String} {value : Value} {schemas : List (Schema κ)}
    {causes : List Fault} (kinds : members.kind = others.kind)
    (each : ∀ schema ∈ schemas, members.validate schema (some value) path scope =
      others.validate schema (some value) path scope) :
    members.firstOf names value path scope schemas causes =
      others.firstOf names value path scope schemas causes := by
  induction schemas generalizing causes with
  | nil => rfl
  | cons schema rest ih =>
    obtain ⟨first, later⟩ := List.forall_mem_cons.mp each
    have further : ∀ causes, members.firstOf names value path scope rest causes =
        others.firstOf names value path scope rest causes := fun _ => ih later
    simp only [firstOf, kinds, first, further]

end Members

/-- A step is taken alike with members that answer its calls alike. -/
theorem Step.run_determined {step : Step κ} {value : Value} (kinds : members.kind = others.kind)
    (each : ∀ schema input place inside, step.Calls value path scope schema input place inside →
      members.validate schema input place inside = others.validate schema input place inside) :
    step.run host members settings value path scope =
      step.run host others settings value path scope := by
  cases step with
  | check => rfl
  | keys schema =>
    cases value with
    | object entries =>
      rw [run, run, Members.keys_determined fun entry listed => each _ _ _ _ (.key listed)]
    | _ => rfl
  | elements schema =>
    cases value with
    | array items =>
      have all : members.elements schema path scope 0 items =
          others.elements schema path scope 0 items := by
        apply Members.elements_determined
        intro place item found
        rw [Nat.zero_add]
        exact each _ _ _ _ (.element found)
      rw [run, run, all]
    | _ => rfl
  | values schema =>
    cases value with
    | object entries =>
      rw [run, run, Members.values_determined fun entry listed => each _ _ _ _ (.value listed)]
    | _ => rfl
  | fields declared =>
    rw [run, run, runFields, runFields]
    cases given : value.fields? with
    | none => rfl
    | some input =>
      dsimp only
      rw [Members.fields_determined fun field listed => each _ _ _ _ (.field listed given)]
  | positions schemas =>
    cases value with
    | array items =>
      have all : members.positions path scope 0 schemas items =
          others.positions path scope 0 schemas items := by
        apply Members.positions_determined
        intro place schema found
        rw [Nat.zero_add]
        exact each _ _ _ _ (.position found)
      simp only [run, runPositions, all]
    | _ => rfl
  | members schemas =>
    exact Members.firstOf_determined kinds fun schema listed => each _ _ _ _ (.member listed)

namespace Body

/-- Among the steps, taken one after the other, the step is met with the value and not left out. -/
inductive Meets (host : Host κ) (members : Members κ) (settings : Settings κ) (path : Path)
    (scope : Scope) : List (Step κ) → Value → Step κ → Value → Prop
  /-- It is the first one. -/
  | here {step : Step κ} {rest : List (Step κ)} {value : Value}
      (due : ((!scope.isStrict && step.role == .check) || step.isSkipped settings value) = false) :
      Meets host members settings path scope (step :: rest) value step value
  /-- The first one is left out. -/
  | past {first step : Step κ} {rest : List (Step κ)} {value met : Value}
      (omitted : ((!scope.isStrict && first.role == .check) ||
        first.isSkipped settings value) = true)
      (later : Meets host members settings path scope rest value step met) :
      Meets host members settings path scope (first :: rest) value step met
  /-- The first one was taken, and may have replaced the value. -/
  | after {first step : Step κ} {rest : List (Step κ)} {value met : Value}
      {replaced : Option Value}
      (due : ((!scope.isStrict && first.role == .check) || first.isSkipped settings value) = false)
      (ran : (first.run host members settings value path scope).result? = some replaced)
      (later : Meets host members settings path scope rest (replaced.getD value) step met) :
      Meets host members settings path scope (first :: rest) value step met

/-- Steps are taken alike when each that is met is. -/
theorem takeSteps_determined {steps : List (Step κ)} {value : Value}
    (each : ∀ step met, Meets host members settings path scope steps value step met →
      step.run host members settings met path scope =
        step.run host others settings met path scope) :
    takeSteps host members settings path scope steps value =
      takeSteps host others settings path scope steps value := by
  induction steps generalizing value with
  | nil => rfl
  | cons first rest ih =>
    rw [takeSteps, takeSteps]
    split
    · rename_i omitted
      exact ih fun step met later => each step met (.past omitted later)
    · rename_i taken
      have due := Bool.eq_false_iff.mpr taken
      rw [← each first value (.here due)]
      refine Run.bind_determined fun replaced ran => ih fun step met later => ?_
      exact each step met (.after due ran later)

/-- A body takes the step with the value that is met: it receives a value other than null, which passes
the type check if that is made, and the steps before leave the value that is met. -/
def Takes (host : Host κ) (members : Members κ) (body : Body κ) (input : Option Value) (path : Path)
    (scope : Scope) (step : Step κ) (met : Value) : Prop :=
  ∃ given, (receive host body.settings input path scope).result? = some (some given) ∧
    given ≠ .null ∧ (scope.isStrict = true → body.settings.kind.check given = true) ∧
      Meets host members body.settings path scope body.steps given step met

/-- A body validates alike with members of the same kinds that answer alike all calls of the steps
that it takes. -/
theorem validate_determined {body : Body κ} {input : Option Value}
    (kinds : members.kind = others.kind)
    (each : ∀ step met, body.Takes host members input path scope step met →
      ∀ schema value place inside, step.Calls met path scope schema value place inside →
        members.validate schema value place inside = others.validate schema value place inside) :
    body.validate host members input path scope = body.validate host others input path scope := by
  rw [validate, validate]
  refine Run.bind_determined fun received arrived => ?_
  cases received with
  | none => rfl
  | some given =>
    dsimp only
    cases absent : given.isNull with
    | true => rw [if_pos rfl, if_pos rfl]
    | false =>
      have defined := Value.isNull_eq_false_iff.mp absent
      have processed : body.process host members given path scope =
          body.process host others given path scope := by
        rw [process, process]
        split
        · rfl
        · rename_i allowed
          have checked : scope.isStrict = true → body.settings.kind.check given = true := by
            intro strict
            simpa [strict] using allowed
          rw [takeSteps_determined fun step met meets => ?_]
          refine Step.run_determined kinds fun schema value place inside calls => ?_
          exact each step met ⟨given, arrived, defined, checked, meets⟩ schema value place inside
            calls
      rw [processed]

/-- The fault of a step that is met ends the steps. -/
theorem Meets.fault {steps : List (Step κ)} {value met : Value} {step : Step κ} {fault : Fault}
    (meets : Meets host members settings path scope steps value step met)
    (refused : (step.run host members settings met path scope).fault? = some fault) :
    (takeSteps host members settings path scope steps value).fault? = some fault := by
  induction meets with
  | here due =>
    rw [takeSteps, due, if_neg Bool.false_ne_true]
    exact Run.fault?_bind.mpr (.inl refused)
  | past omitted _ ih =>
    rw [takeSteps, omitted, if_pos rfl]
    exact ih refused
  | after due ran _ ih =>
    rw [takeSteps, due, if_neg Bool.false_ne_true]
    exact Run.fault?_bind.mpr (.inr ⟨_, ran, ih refused⟩)

/-- The fault of a step that a body takes is that of the body. -/
theorem Takes.fault {body : Body κ} {input : Option Value} {step : Step κ} {met : Value}
    {fault : Fault} (taken : body.Takes host members input path scope step met)
    (refused : (step.run host members body.settings met path scope).fault? = some fault) :
    (body.validate host members input path scope).fault? = some fault := by
  obtain ⟨given, arrived, defined, checked, meets⟩ := taken
  have allowed : (scope.isStrict && !body.settings.kind.check given) = false := by
    cases strict : scope.isStrict with
    | false => rfl
    | true => rw [checked strict]; rfl
  have processed : (body.process host members given path scope).fault? = some fault := by
    rw [process, allowed, if_neg Bool.false_ne_true]
    exact Run.fault?_bind.mpr (.inl (meets.fault refused))
  rw [validate]
  refine Run.fault?_bind.mpr (.inr ⟨_, arrived, ?_⟩)
  dsimp only
  rw [Value.isNull_eq_false_iff.mpr defined, if_neg Bool.false_ne_true]
  exact Run.fault?_bind.mpr (.inl processed)

end Body

/-! ## Visits and how they are come by -/

/-- A schema met with its input at a place, its members to be validated to a depth less one. -/
structure Visit (κ : Type) where
  /-- How deep the validation may go. -/
  depth : Nat
  /-- What the input is held to. -/
  schema : Schema κ
  /-- What is validated, if it is defined. -/
  input : Option Value
  /-- Where the input lies. -/
  path : Path
  /-- What is around the input. -/
  scope : Scope

/-- How a schema came to be visited. -/
inductive Entrance where
  /-- The validation starts with it. -/
  | start
  /-- It is that of a declared field, for which this is held, and names and unions on the way there. -/
  | field (held : Option Value)
  /-- It is that of the values of a plain object. -/
  | entry
  /-- It is that of the keys of a plain object. -/
  | key
  /-- It is that of the items or of a position of an array. -/
  | item

/-- What is followed of the way to a visit. -/
structure Approach where
  /-- How the schema came to be visited, names and unions on the way apart. -/
  entrance : Entrance
  /-- The object of the innermost shape around, or else what was around the start. -/
  around : Option Value

namespace Approach

/-- How the visit of a call is come by. -/
def enter (approach : Approach) (step : Step κ) (met : Value) (input : Option Value) : Approach :=
  match step with
  | .fields _ => ⟨.field input, some met⟩
  | .values _ => ⟨.entry, approach.around⟩
  | .keys _ => ⟨.key, approach.around⟩
  | .elements _ | .positions _ => ⟨.item, approach.around⟩
  | .members _ | .check _ => approach

/-- What was followed agrees with the visit: the object around is the current one, and what is held
for a field is what this object has under the key that the path ends in. -/
structure Fits (approach : Approach) (visit : Visit κ) : Prop where
  /-- The object around is the current one. -/
  current : visit.scope.current = approach.around
  /-- The object has under the key what is held for the field. -/
  held : ∀ held, approach.entrance = .field held →
    ∃ key object, visit.path.lastKey? = some key ∧ approach.around = some object ∧
      object.field? key = held

end Approach

namespace Visit

/-- The visit takes the step with the value that is met. -/
inductive Takes : Visit κ → Host κ → Step κ → Value → Prop
  /-- The body that is visited does. -/
  | body {depth : Nat} {host : Host κ} {body : Body κ} {input : Option Value} {path : Path}
      {scope : Scope} {step : Step κ} {met : Value}
      (taken : body.Takes host (Schema.membersAt host depth) input path scope step met) :
      Takes ⟨depth + 1, .built body, input, path, scope⟩ host step met

/-- From a start the other visit is reached, and this is how. -/
inductive Reaches (start : Visit κ) (host : Host κ) : Approach → Visit κ → Prop
  /-- The start itself, in its surroundings. -/
  | start : Reaches start host ⟨.start, start.scope.current⟩ start
  /-- What a name stands for. -/
  | target {approach : Approach} {depth : Nat} {name : String} {target : Schema κ}
      {input : Option Value} {path : Path} {scope : Scope}
      (reached : Reaches start host approach ⟨depth + 1, .deferred name, input, path, scope⟩)
      (defined : host.definitions name = .ok target) :
      Reaches start host approach ⟨depth, target, input, path, scope⟩
  /-- A call of a step that is taken. -/
  | call {approach : Approach} {depth : Nat} {body : Body κ} {input : Option Value} {path : Path}
      {scope : Scope} {step : Step κ} {met : Value} {schema : Schema κ} {value : Option Value}
      {place : Path} {inside : Scope}
      (reached : Reaches start host approach ⟨depth + 1, .built body, input, path, scope⟩)
      (taken : body.Takes host (Schema.membersAt host depth) input path scope step met)
      (calls : step.Calls met path scope schema value place inside) :
      Reaches start host (approach.enter step met value) ⟨depth, schema, value, place, inside⟩

/-- What is done on a visit. -/
def run (host : Host κ) (visit : Visit κ) : Run (Option Value) :=
  visit.schema.validateAt host visit.depth visit.input visit.path visit.scope

/-- Members that are validated as the visits of them are said to run. -/
def membersWith (host : Host κ) (runs : Visit κ → Run (Option Value)) (depth : Nat) : Members κ :=
  ⟨fun schema value place inside => runs ⟨depth, schema, value, place, inside⟩,
    fun schema => schema.resolvedKind host depth⟩

/-- What is done on a visit if these are the runs of the visits inside it. -/
def runWith (host : Host κ) (runs : Visit κ → Run (Option Value)) : Visit κ → Run (Option Value)
  | ⟨0, _, _, _, _⟩ => .unfinished
  | ⟨depth + 1, .built body, input, path, scope⟩ =>
    body.validate host (membersWith host runs depth) input path scope
  | ⟨depth + 1, .deferred name, input, path, scope⟩ => do
    let target ← Run.ofMisuse (host.definitions name)
    runs ⟨depth, target, input, path, scope⟩

/-- What is done on a visit comes about from what is done on the visits inside it. -/
theorem run_eq (visit : Visit κ) : visit.run host = visit.runWith host (run host) := by
  obtain ⟨depth, schema, input, path, scope⟩ := visit
  cases depth with
  | zero => rfl
  | succ depth => cases schema <;> rfl

/-- A validation asks for the visits that are reached from its start and for nothing else: runs that
come about from those of the visits inside, at each visit that is reached, are those of the
validation. -/
theorem run_determined {start : Visit κ} {runs : Visit κ → Run (Option Value)}
    (each : ∀ approach visit, start.Reaches host approach visit →
      runs visit = visit.runWith host runs) {approach : Approach} {visit : Visit κ}
    (reached : start.Reaches host approach visit) : runs visit = visit.run host := by
  obtain ⟨depth, schema, input, path, scope⟩ := visit
  induction depth generalizing approach schema input path scope with
  | zero => exact each _ _ reached
  | succ depth ih =>
    refine (each _ _ reached).trans ?_
    cases schema with
    | built body =>
      have kinds : (Schema.membersAt host depth).kind = (membersWith host runs depth).kind := rfl
      have alike := Body.validate_determined kinds fun step met taken schema value place inside calls =>
        (ih schema value place inside (.call reached taken calls)).symm
      exact alike.symm
    | deferred name =>
      refine Run.bind_determined fun target found => ?_
      exact ih _ _ _ _ (.target reached (Run.result?_ofMisuse_eq_some.mp found))

/-- Where a check that is taken objects, the visit ends with its objection. -/
theorem Takes.fault {visit : Visit κ} {condition : Check κ} {met : Value} {reason : Reason}
    (taken : visit.Takes host (.check condition) met)
    (objects : condition.objection? host met visit.path visit.scope = some reason) :
    (visit.run host).fault? = some (.located visit.path reason) := by
  cases taken with
  | body taken =>
    apply Body.Takes.fault taken
    rw [Step.run, Check.run, objects]
    rfl

end Visit

/-- What is followed of a call agrees with it, if what was followed of the visit does that makes it:
only the step into a field changes the object around, and it is a step to the key of the field. -/
theorem Approach.Fits.enter {approach : Approach} {depth less : Nat} {schema inner : Schema κ}
    {input value : Option Value} {place : Path} {inside : Scope} {step : Step κ} {met : Value}
    (fits : approach.Fits ⟨depth, schema, input, path, scope⟩)
    (calls : step.Calls met path scope inner value place inside) :
    (approach.enter step met value).Fits ⟨less, inner, value, place, inside⟩ := by
  cases calls with
  | member => exact ⟨fits.current, fits.held⟩
  | @field declared field _ entries _ _ listed given =>
    refine ⟨rfl, fun held same => ⟨field.1, met, Path.lastKey?_key path field.1, rfl, ?_⟩⟩
    rw [← Entrance.field.inj same, Value.field?, given, Option.bind_some]
  | _ => exact ⟨fits.current, fun _ same => by cases same⟩

/-- What is followed of the way from a start to a visit agrees with the visit. -/
theorem Visit.Reaches.fits {start visit : Visit κ} {approach : Approach}
    (reached : start.Reaches host approach visit) : approach.Fits visit := by
  induction reached with
  | start => exact ⟨rfl, fun _ same => by cases same⟩
  | target _ _ ih => exact ⟨ih.current, ih.held⟩
  | call _ _ calls ih => exact ih.enter calls

end Assay
