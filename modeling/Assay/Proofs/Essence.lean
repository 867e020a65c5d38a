import Assay.Proofs.Deferral
import Assay.Proofs.Leniency
import Assay.Proofs.Tolerance

/-!
# What lenient validation depends on

A schema is stripped to what is bare (`Schema.bare`): at every depth its checks go and its flags are
as at the start, while its kind, its default and the steps that can rebuild stay. Lenient validation
ends with the same verdict for the bare schema (`Schema.validateAt_bare`). Definitions may refer to one
another in circles, so this is proved of any relation between schemas that rebuild alike and that
unfold to related ones (`Schema.RebuildsAlike`), in both directions. Faults are compared up to the
types that unions show, which do not matter in the end: a lenient validation has no fault of that
form.
-/
namespace Assay

variable {κ : Type}

mutual

/-- The schema without checks and flags, at every depth. -/
def Schema.bare : Schema κ → Schema κ
  | .built body => .built body.bare
  | .deferred name => .deferred name

/-- A body of the same kind with the same default, built anew by the steps that can rebuild. -/
def Body.bare : Body κ → Body κ
  | ⟨settings, steps⟩ =>
    (Step.bareCriteria steps).foldl Body.refine
      ⟨{ (.ofKind settings.kind : Settings κ) with default := settings.default }, []⟩

/-- The criteria that register the steps that can rebuild, with bare schemas. -/
def Step.bareCriteria : List (Step κ) → List (Criterion κ)
  | [] => []
  | step :: rest => step.bareCriterion?.toList ++ Step.bareCriteria rest

/-- The criterion that registers the step with bare schemas, if the step can rebuild. -/
def Step.bareCriterion? : Step κ → Option (Criterion κ)
  | .check _ | .keys _ => none
  | .elements schema => some (.elements schema.bare)
  | .values schema => some (.values schema.bare)
  | .fields declared => some (.fields (Schema.bareFields declared))
  | .positions schemas => some (.positions (Schema.bareAll schemas))
  | .members schemas => some (.members (Schema.bareAll schemas))

/-- Schemas, each bare. -/
def Schema.bareAll : List (Schema κ) → List (Schema κ)
  | [] => []
  | schema :: rest => schema.bare :: Schema.bareAll rest

/-- Declared fields, each with its bare schema. -/
def Schema.bareFields : List (String × Schema κ) → List (String × Schema κ)
  | [] => []
  | (name, schema) :: rest => (name, schema.bare) :: Schema.bareFields rest

end

/-- The host by which every name stands for a bare schema. -/
def Host.bare (host : Host κ) : Host κ :=
  { host with definitions := fun name => (host.definitions name).map Schema.bare }

/-- What is alike to the fault of a nested union is that fault. -/
theorem Fault.Alike.eq_of_nestedUnion {place : Path} {other : Fault}
    (alike : Alike (.located place .nestedUnion) other) :
    other = .located place .nestedUnion := by
  generalize named : Fault.located place .nestedUnion = fault at alike
  cases alike with
  | same => rfl
  | noMember => cases named

/-! ## Schemas that rebuild alike -/

namespace Step

/-- The steps that can rebuild, in order. -/
def rebuilding (steps : List (Step κ)) : List (Step κ) :=
  steps.filter fun step => step.role == .rebuild

/-- A step that can only refuse is not among those that can rebuild. -/
theorem rebuilding_cons_of_check {step : Step κ} (role : step.role = .check)
    (rest : List (Step κ)) : rebuilding (step :: rest) = rebuilding rest :=
  List.filter_cons_of_neg (by rw [role]; decide)

/-- A step that can rebuild is the first of those that can. -/
theorem rebuilding_cons_of_rebuild {step : Step κ} (role : step.role = .rebuild)
    (rest : List (Step κ)) : rebuilding (step :: rest) = step :: rebuilding rest :=
  List.filter_cons_of_pos (by rw [role]; rfl)

/-- A step among those that can rebuild does so. -/
theorem role_of_rebuilding {step : Step κ} {steps : List (Step κ)}
    (listed : step ∈ rebuilding steps) : step.role = .rebuild :=
  eq_of_beq (List.mem_filter.mp listed).2

end Step

namespace Schema

variable {host beyond : Host κ} {related : Schema κ → Schema κ → Prop} {schema twin : Schema κ}

/-- The schemas have the same kind and default and rebuild in the same steps, with related schemas
inside; deferred, they have one name, which stands for related schemas or for the same mistake. -/
inductive RebuildsAlike (host beyond : Host κ) (related : Schema κ → Schema κ → Prop) :
    Schema κ → Schema κ → Prop
  /-- Bodies of one kind with the same default and steps. -/
  | built {body twin : Body κ} (kind : body.settings.kind = twin.settings.kind)
      (default : ∀ path scope, body.settings.default.resolve host path scope =
        twin.settings.default.resolve beyond path scope)
      (steps : List.Forall₂ (Step.Alike related) (Step.rebuilding body.steps)
        (Step.rebuilding twin.steps)) :
      RebuildsAlike host beyond related (.built body) (.built twin)
  /-- One name for related schemas. -/
  | deferred {name : String} {target another : Schema κ}
      (defined : host.definitions name = .ok target)
      (again : beyond.definitions name = .ok another) (same : related target another) :
      RebuildsAlike host beyond related (.deferred name) (.deferred name)
  /-- One name for one mistake. -/
  | undefined {name : String} {misuse : Misuse} (missing : host.definitions name = .error misuse)
      (also : beyond.definitions name = .error misuse) :
      RebuildsAlike host beyond related (.deferred name) (.deferred name)

/-- Schemas rebuild alike both ways round. -/
theorem RebuildsAlike.flip (alike : RebuildsAlike host beyond related schema twin) :
    RebuildsAlike beyond host (flip related) twin schema := by
  cases alike with
  | built kind default steps =>
    exact .built kind.symm (fun path scope => (default path scope).symm)
      (steps.imp fun _ _ alike => alike.flip).flip
  | deferred defined again same => exact .deferred again defined same
  | undefined missing also => exact .undefined also missing

end Schema

/-- The comparison of lenient validations in the same surroundings. -/
def Comparison.lenient (related : Schema κ → Schema κ → Prop) : Comparison κ where
  schema := related
  place path scope other beside := path = other ∧ scope = beside ∧ scope.isStrict = false
  fault := Fault.Alike
  mode placed := congrArg Scope.mode placed.2.1
  child := by
    rintro path _ scope _ ⟨rfl, rfl, lenient⟩ segment
    exact ⟨rfl, rfl, lenient⟩
  within := by
    rintro path _ scope _ ⟨rfl, rfl, lenient⟩ object
    exact ⟨rfl, rfl, lenient⟩
  located := by
    rintro path _ scope _ ⟨rfl, rfl, _⟩ reason
    exact .same _
  noMember := by
    rintro path _ scope _ schemas others causes later ⟨rfl, rfl, _⟩ listed caused value
    refine .noMember ?_ caused value path
    rw [List.length_map, List.length_map, listed.length_eq]

namespace Body

variable {host beyond : Host κ} {members others : Members κ} {body twin : Body κ} {path : Path}
  {scope : Scope}

/-- Leniently, input is received as it is, or as the default if it is undefined. -/
theorem receive_lenient_verdict (settings : Settings κ) (lenient : scope.isStrict = false)
    (value : Option Value) :
    (receive host settings value path scope).verdict =
      .accepted (value.or (settings.default.resolve host path scope)) := by
  cases value with
  | none => simp [receive, lenient, pure, Run.accept]
  | some value =>
    cases noticed : settings.deprecated <;>
      simp [receive, noticed, lenient, pure, bind, Run.accept, Run.andThen, Run.note]

/-- Leniently, only the steps that can rebuild are taken. -/
theorem takeSteps_rebuilding (settings : Settings κ) (lenient : scope.isStrict = false)
    (steps : List (Step κ)) (value : Value) :
    takeSteps host members settings path scope steps value =
      takeSteps host members settings path scope (Step.rebuilding steps) value := by
  induction steps generalizing value with
  | nil => rfl
  | cons step rest ih =>
    cases role : step.role with
    | check =>
      rw [Step.rebuilding_cons_of_check role, takeSteps, role, lenient]
      exact ih value
    | rebuild =>
      rw [Step.rebuilding_cons_of_rebuild role, takeSteps, takeSteps, ih]
      simp only [ih]

/-- Bodies of one kind with the same default and steps that can rebuild agree leniently. -/
theorem validate_agrees_lenient {related : Schema κ → Schema κ → Prop}
    (kind : body.settings.kind = twin.settings.kind)
    (default : ∀ path scope, body.settings.default.resolve host path scope =
      twin.settings.default.resolve beyond path scope)
    (steps : List.Forall₂ (Step.Alike related) (Step.rebuilding body.steps)
      (Step.rebuilding twin.steps))
    (agree : members.Agree (.lenient related) others) (lenient : scope.isStrict = false)
    (value : Option Value) :
    (body.validate host members value path scope).Agrees Fault.Alike
      (twin.validate beyond others value path scope) := by
  have received : (receive host body.settings value path scope).Agrees Fault.Alike
      (receive beyond twin.settings value path scope) := by
    intro _
    rw [receive_lenient_verdict _ lenient, receive_lenient_verdict _ lenient, default]
    exact .accepted _
  refine received.bind fun outcome => ?_
  cases outcome with
  | none => exact .pure none
  | some given =>
    dsimp only
    split
    · rw [lenient, Bool.not_false, Bool.or_true, Bool.or_true, if_pos rfl]
      exact .pure _
    · rw [process, process, lenient, Bool.false_and, Bool.false_and, if_neg Bool.false_ne_true,
        takeSteps_rebuilding body.settings lenient,
        takeSteps_rebuilding twin.settings lenient, kind]
      refine Run.Agrees.bind (Run.Agrees.bind ?_ fun _ => .pure _) fun _ => .pure _
      have skipped : ∀ step ∈ Step.rebuilding body.steps, ∀ value,
          step.isSkipped body.settings value = step.isSkipped twin.settings value := by
        intro step listed value
        have role := Step.role_of_rebuilding listed
        rw [Step.isSkipped_of_rebuild role, Step.isSkipped_of_rebuild role]
      exact takeSteps_agree steps agree
        (fun condition listed => by cases Step.role_of_rebuilding listed)
        ⟨rfl, rfl, lenient⟩ skipped
        (fun strict => absurd (lenient.symm.trans strict) Bool.false_ne_true) given

end Body

namespace Schema

variable {host beyond : Host κ} {related : Schema κ → Schema κ → Prop}

/-- Schemas that rebuild alike are found to have the same kind. -/
theorem resolvedKind_agrees_rebuilding
    (closed : ∀ schema twin, related schema twin → RebuildsAlike host beyond related schema twin)
    (depth : Nat) {schema twin : Schema κ} (same : related schema twin) :
    (schema.resolvedKind host depth).Agrees Fault.Alike (twin.resolvedKind beyond depth) := by
  induction depth generalizing schema twin with
  | zero =>
    cases closed schema twin same with
    | built kind default steps =>
      rw [resolvedKind_built, resolvedKind_built, kind]
      exact .pure _
    | _ => exact .unfinished _
  | succ depth ih =>
    cases closed schema twin same with
    | built kind default steps =>
      rw [resolvedKind_built, resolvedKind_built, kind]
      exact .pure _
    | deferred defined again inner =>
      rw [resolvedKind, resolvedKind, defined, again]
      exact ih inner
    | undefined missing also =>
      rw [resolvedKind, resolvedKind, missing, also]
      exact fun _ => .misused _

/-- Schemas that rebuild alike agree leniently, to the same depth. -/
theorem validateAt_agrees_rebuilding
    (closed : ∀ schema twin, related schema twin → RebuildsAlike host beyond related schema twin)
    (depth : Nat) {schema twin : Schema κ} (same : related schema twin) (value : Option Value)
    (path : Path) {scope : Scope} (lenient : scope.isStrict = false) :
    (schema.validateAt host depth value path scope).Agrees Fault.Alike
      (twin.validateAt beyond depth value path scope) := by
  induction depth generalizing schema twin value path scope with
  | zero => exact .unfinished _
  | succ depth ih =>
    cases closed schema twin same with
    | built kind default steps =>
      have agree : (membersAt host depth).Agree (.lenient related) (membersAt beyond depth) := by
        intro schema another same
        refine ⟨?_, resolvedKind_agrees_rebuilding closed depth same⟩
        rintro value path scope _ _ ⟨rfl, rfl, lenient⟩
        exact ih same value path lenient
      exact Body.validate_agrees_lenient kind default steps agree lenient value
    | deferred defined again inner =>
      rw [validateAt, validateAt, defined, again]
      exact ih inner value path lenient
    | undefined missing also =>
      rw [validateAt, validateAt, missing, also]
      exact fun _ => .misused _

/-- A lenient validation fails only with the fault of a nested union. -/
theorem fault_of_lenient {schema : Schema κ} {depth : Nat} {value : Option Value} {path : Path}
    {scope : Scope} {fault : Fault} (lenient : scope.isStrict = false)
    (rejected : (schema.validateAt host depth value path scope).fault? = some fault) :
    ∃ place, fault = .located place .nestedUnion := by
  have tolerates : (membersAt host depth).Tolerates
      (fun fault => ∃ place, fault = .located place .nestedUnion) True schema :=
    membersAt_tolerates (fun _ _ _ _ _ _ _ _ _ place => ⟨place, rfl⟩) (.inl trivial)
  exact (tolerates value path scope lenient).fault rejected

/-- Schemas that rebuild alike end leniently with the same verdict, to the same depth. -/
theorem verdict_eq_of_rebuilding
    (closed : ∀ schema twin, related schema twin → RebuildsAlike host beyond related schema twin)
    (depth : Nat) {schema twin : Schema κ} (same : related schema twin) (value : Option Value)
    (path : Path) {scope : Scope} (lenient : scope.isStrict = false) :
    (schema.validateAt host depth value path scope).verdict =
      (twin.validateAt beyond depth value path scope).verdict := by
  have reverse : ∀ schema twin, flip related schema twin →
      RebuildsAlike beyond host (flip related) schema twin :=
    fun _ _ same => (closed _ _ same).flip
  have back : flip related twin schema := same
  refine (validateAt_agrees_rebuilding closed depth same value path lenient).verdict_eq_of_both
    (validateAt_agrees_rebuilding reverse depth back value path lenient)
    fun fault other rejected alike => ?_
  obtain ⟨place, rfl⟩ := fault_of_lenient lenient rejected
  exact alike.eq_of_nestedUnion.symm

end Schema

/-! ## Bare schemas -/

namespace Schema

/-- The second schema is the first one, bare. -/
def StripsTo (schema twin : Schema κ) : Prop := schema.bare = twin

/-- Schemas strip to bare schemas, one by one. -/
theorem bareAll_stripped (schemas : List (Schema κ)) :
    List.Forall₂ StripsTo schemas (bareAll schemas) := by
  induction schemas with
  | nil => exact .nil
  | cons schema rest ih => exact .cons rfl ih

/-- Declared fields keep their names, and their schemas strip to bare schemas. -/
theorem bareFields_stripped (declared : List (String × Schema κ)) :
    declared.map Prod.fst = (bareFields declared).map Prod.fst ∧
      List.Forall₂ StripsTo (declared.map Prod.snd) ((bareFields declared).map Prod.snd) := by
  induction declared with
  | nil => exact ⟨rfl, .nil⟩
  | cons field rest ih =>
    obtain ⟨name, schema⟩ := field
    exact ⟨congrArg (name :: ·) ih.1, .cons rfl ih.2⟩

end Schema

namespace Step

/-- A step that can only refuse has no criterion among the bare ones. -/
theorem bareCriterion?_of_check {step : Step κ} (role : step.role = .check) :
    step.bareCriterion? = none := by
  cases step with
  | check => rfl
  | keys => rfl
  | _ => cases role

/-- The criterion of a step that can rebuild registers a step that does the same with bare schemas,
and leaves the default alone. -/
theorem bareCriterion?_of_rebuild {step : Step κ} (role : step.role = .rebuild) :
    ∃ criterion twin, step.bareCriterion? = some criterion ∧ step.Alike Schema.StripsTo twin ∧
      ∀ body : Body κ, (body.refine criterion).steps = body.steps ++ [twin] ∧
        (body.refine criterion).settings.default = body.settings.default := by
  cases step with
  | check => cases role
  | keys => cases role
  | elements schema => exact ⟨_, _, rfl, .elements rfl, fun _ => ⟨rfl, rfl⟩⟩
  | values schema => exact ⟨_, _, rfl, .values rfl, fun _ => ⟨rfl, rfl⟩⟩
  | fields declared =>
    obtain ⟨named, same⟩ := Schema.bareFields_stripped declared
    exact ⟨_, _, rfl, .fields named same, fun _ => ⟨rfl, rfl⟩⟩
  | positions schemas =>
    exact ⟨_, _, rfl, .positions (Schema.bareAll_stripped schemas), fun _ => ⟨rfl, rfl⟩⟩
  | members schemas =>
    exact ⟨_, _, rfl, .members (Schema.bareAll_stripped schemas), fun _ => ⟨rfl, rfl⟩⟩

/-- Refined by the bare criteria of some steps, a body keeps its kind and default and takes further
steps, which do the same as those that can rebuild. -/
theorem refine_bareCriteria (steps : List (Step κ)) (body : Body κ) :
    ((bareCriteria steps).foldl Body.refine body).settings.kind = body.settings.kind ∧
      ((bareCriteria steps).foldl Body.refine body).settings.default = body.settings.default ∧
      ∃ later, ((bareCriteria steps).foldl Body.refine body).steps = body.steps ++ later ∧
        List.Forall₂ (Alike Schema.StripsTo) (rebuilding steps) later := by
  induction steps generalizing body with
  | nil => exact ⟨rfl, rfl, [], (List.append_nil _).symm, .nil⟩
  | cons step rest ih =>
    cases role : step.role with
    | check =>
      rw [bareCriteria, bareCriterion?_of_check role, rebuilding_cons_of_check role]
      exact ih body
    | rebuild =>
      obtain ⟨criterion, twin, registered, alike, refined⟩ := bareCriterion?_of_rebuild role
      obtain ⟨added, supplied⟩ := refined body
      obtain ⟨kind, default, later, taken, same⟩ := ih (body.refine criterion)
      rw [bareCriteria, registered, rebuilding_cons_of_rebuild role]
      refine ⟨kind.trans (Body.refine_kind body criterion), default.trans supplied, twin :: later,
        ?_, .cons alike same⟩
      rw [List.append_cons, ← added]
      exact taken

end Step

namespace Schema

variable {host : Host κ}

/-- A schema and the bare one rebuild alike, each by its host. -/
theorem rebuildsAlike_bare (schema twin : Schema κ) (stripped : schema.StripsTo twin) :
    RebuildsAlike host host.bare StripsTo schema twin := by
  obtain rfl := stripped
  cases schema with
  | built body =>
    obtain ⟨settings, steps⟩ := body
    obtain ⟨kind, default, later, taken, same⟩ := Step.refine_bareCriteria steps
      ⟨{ (.ofKind settings.kind : Settings κ) with default := settings.default }, []⟩
    have rebuilds : ∀ twin ∈ later, (twin.role == .rebuild) = true := by
      intro twin listed
      obtain ⟨step, among, alike⟩ := Entries.exists_left_of_forall₂ same listed
      rw [← alike.role, Step.role_of_rebuilding among]
      rfl
    refine .built kind.symm (fun path scope => ?_) ?_
    · rw [show (Body.bare ⟨settings, steps⟩).settings.default = settings.default from default]
      cases settings.default <;> rfl
    · rw [show (Body.bare ⟨settings, steps⟩).steps = later from taken]
      rw [show Step.rebuilding later = later from List.filter_eq_self.mpr rebuilds]
      exact same
  | deferred name =>
    cases defined : host.definitions name with
    | ok target =>
      have bare : host.bare.definitions name = .ok target.bare :=
        congrArg (Except.map Schema.bare) defined
      exact .deferred defined bare rfl
    | error misuse =>
      have bare : host.bare.definitions name = .error misuse :=
        congrArg (Except.map Schema.bare) defined
      exact .undefined defined bare

/-- Lenient validation ends with the same verdict, be it a result or a fault, for a schema as for the
bare one, by the host that knows the names as bare schemas. -/
theorem validateAt_bare (host : Host κ) (depth : Nat) (schema : Schema κ) (value : Option Value)
    (path : Path) (scope : Scope) (lenient : scope.mode = .lenient) :
    (schema.validateAt host depth value path scope).verdict =
      (schema.bare.validateAt host.bare depth value path scope).verdict := by
  have leniently : scope.isStrict = false := Scope.isStrict_of_lenient lenient
  exact verdict_eq_of_rebuilding rebuildsAlike_bare depth rfl value path leniently

end Schema

/-- Bare counts are numbers. -/
example : (Schema.built count).bare = .built (.ofKind .number) := rfl

/-- An order of a weight below zero, with no parts, as lenient validation leaves it. -/
def underweightOrder : Value := .object [("parts", .array []), ("weight", .number (-1))]

/-- Lenient validation lets a weight below zero pass whether counts are positive or bare. -/
theorem Schema.validateAt_bare_order :
    (Scope.new .lenient).mode = .lenient ∧
      (orderByName.validateAt counts 4 (some underweight) .root (.new .lenient)).verdict =
        .accepted (some underweightOrder) ∧
      (orderByName.bare.validateAt counts.bare 4 (some underweight) .root
        (.new .lenient)).verdict = .accepted (some underweightOrder) :=
  ⟨rfl, rfl, (validateAt_bare counts 4 orderByName (some underweight) .root (.new .lenient)
    rfl).symm.trans rfl⟩

end Assay
