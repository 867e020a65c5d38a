import Mathlib.Data.Finset.Lattice.Fold
import Assay.Proofs.Calls
import Assay.Proofs.Depth
import Assay.Proofs.References

/-!
# Termination

Names are looked up inside one another to a number of unfoldings, whatever the depth
(`Schema.validateWithin`). A guarded step hands on less than it was given: items or values, or
fields or positions that may be left out without consequences (`Step.Guards`). So every guarded call
lowers the nesting of what is received, and between two of them the names looked up have lower and
lower ranks. A schema over a family of definitions whose circles are guarded therefore completes
within a number of unfoldings that the nesting of the input and the number of names determine
(`Schema.Affords.endsWithin`). Without guards it need not end, even on input of little
nesting: what is left out is replaced by a default, in which more is left out.
-/
namespace Assay

variable {κ : Type}

namespace Value

mutual

/-- How many containers lie inside one another in a value; an empty one counts for nothing. -/
def height : Value → Nat
  | array items => itemsHeight items
  | object fields => fieldsHeight fields
  | inst _ fields => fieldsHeight fields
  | _ => 0

/-- How many containers lie inside one another in a list of items and around it. -/
def itemsHeight : List Value → Nat
  | [] => 0
  | item :: rest => max (item.height + 1) (itemsHeight rest)

/-- How many containers lie inside one another in a list of fields and around it. -/
def fieldsHeight : List (String × Value) → Nat
  | [] => 0
  | (_, value) :: rest => max (value.height + 1) (fieldsHeight rest)

end

/-- An item is nested less than its array. -/
theorem height_lt_array {items : List Value} {item : Value} (listed : item ∈ items) :
    item.height < (array items).height := by
  show item.height < itemsHeight items
  induction items with
  | nil => cases listed
  | cons first rest ih =>
    rw [itemsHeight]
    rcases List.mem_cons.mp listed with rfl | later
    · exact Nat.lt_of_lt_of_le (Nat.lt_succ_self _) (Nat.le_max_left _ _)
    · exact Nat.lt_of_lt_of_le (ih later) (Nat.le_max_right _ _)

/-- The value of a field is nested less than the fields are with what is around them. -/
theorem height_lt_fields {fields : List (String × Value)} {entry : String × Value}
    (listed : entry ∈ fields) : entry.2.height < fieldsHeight fields := by
  induction fields with
  | nil => cases listed
  | cons first rest ih =>
    rw [fieldsHeight]
    rcases List.mem_cons.mp listed with rfl | later
    · exact Nat.lt_of_lt_of_le (Nat.lt_succ_self _) (Nat.le_max_left _ _)
    · exact Nat.lt_of_lt_of_le (ih later) (Nat.le_max_right _ _)

/-- What a field leads to is nested less than the value that it is a field of. -/
theorem height_lt_of_lookup {value found : Value} {fields : List (String × Value)} {key : String}
    (given : value.fields? = some fields) (present : fields.lookup key = some found) :
    found.height < value.height := by
  have listed : (key, found) ∈ fields := Entries.mem_of_lookup present
  cases value with
  | object held | inst cls held =>
    obtain rfl := Option.some.inj given
    exact height_lt_fields listed
  | _ => cases given

end Value

/-! ## What is received -/

/-- The body rebuilds values once at most, and its default is neither computed nor nested. -/
structure Body.Modest (body : Body κ) : Prop where
  /-- One step at most can rebuild a value. -/
  single : (body.steps.filter fun step => step.role == .rebuild).length ≤ 1
  /-- The host does not compute the default, the current time apart. -/
  supplied : ∀ name, body.settings.default ≠ .computed name
  /-- A fixed default holds no container but an empty one. -/
  bare : ∀ value, body.settings.default = .fixed value → value.height = 0

/-- A body with the default that its kind starts with is modest if it rebuilds values once at
most. -/
theorem Body.Modest.usual {body : Body κ}
    (single : (body.steps.filter fun step => step.role == .rebuild).length ≤ 1)
    (default : body.settings.default = .ofKind body.settings.kind) : body.Modest where
  single := single
  supplied name computed := by
    rw [default] at computed
    cases kind : body.settings.kind <;> rw [kind] at computed <;> cases computed
  bare value fixed := by
    rw [default] at fixed
    cases kind : body.settings.kind <;> rw [kind] at fixed <;> cases fixed <;> rfl

/-- What takes the place of undefined input is not nested, under a modest body. -/
theorem Body.Modest.height_default {body : Body κ} (modest : body.Modest) {host : Host κ}
    {path : Path} {scope : Scope} {value : Value}
    (supplied : body.settings.default.resolve host path scope = some value) : value.height = 0 := by
  cases default : body.settings.default with
  | undefined =>
    rw [default] at supplied
    cases supplied
  | fixed held =>
    rw [default] at supplied
    obtain rfl := Option.some.inj supplied
    exact modest.bare held default
  | computed name => exact absurd default (modest.supplied name)
  | now =>
    rw [default] at supplied
    obtain rfl := Option.some.inj supplied
    rfl

/-- Undefined input is refused, stays undefined or turns into null. -/
def Body.Rests (strict : Bool) (body : Body κ) : Prop :=
  (strict = true ∧ body.settings.required = true) ∨ body.settings.default = .undefined ∨
    body.settings.default = .fixed .null

namespace Schema

variable {host : Host κ} {strict : Bool} {level : Nat} {path : Path} {scope : Scope}

/-- The body that the schema stands for takes undefined input no further. -/
def Rests (host : Host κ) (strict : Bool) (schema : Schema κ) : Prop :=
  ∀ body, schema.ResolvesTo host body → body.Rests strict

/-- What the schema takes further, for the input, is nested less than a level. -/
def Receives (host : Host κ) (strict : Bool) (level : Nat) (schema : Schema κ) :
    Option Value → Prop
  | some value => value.height < level
  | none => 0 < level ∨ schema.Rests host strict

/-- What a name stands for receives what the name does. -/
theorem Receives.target {name : String} {target : Schema κ} {input : Option Value}
    (receives : (Schema.deferred name).Receives host strict level input)
    (defined : host.definitions name = .ok target) :
    target.Receives host strict level input := by
  cases input with
  | some value => exact receives
  | none =>
    refine receives.imp_right fun rests body resolved => ?_
    exact rests body (.deferred defined resolved)

/-- What a modest body takes further is nested less than the level. -/
theorem Receives.height_lt {body : Body κ} {input : Option Value} {given : Value}
    (receives : (Schema.built body).Receives host strict level input) (modest : body.Modest)
    (mode : scope.isStrict = strict)
    (received : (Body.receive host body.settings input path scope).result? = some (some given))
    (defined : given ≠ .null) : given.height < level := by
  obtain ⟨same, required, _⟩ := Body.receive_accepted received
  cases input with
  | some value =>
    obtain rfl := Option.some.inj same
    exact receives
  | none =>
    rw [Option.none_or] at same
    rcases receives with positive | rests
    · have flat := modest.height_default same.symm
      omega
    · rcases rests body (.built body) with ⟨rfl, needed⟩ | absent | empty
      · rw [required rfl needed] at mode
        cases mode
      · rw [absent] at same
        cases same
      · rw [empty] at same
        exact absurd (Option.some.inj same) defined

end Schema

/-! ## What is handed on -/

namespace Step

variable {host : Host κ} {strict : Bool} {level : Nat}

/-- The step hands on the items of an array or the values of an object. -/
def HandsItems : Step κ → Schema κ → Prop
  | elements _, _ | values _, _ => True
  | _, _ => False

/-- The step hands on less than it was given: items or values, or else fields or positions, those
that are not there to a schema that takes undefined input no further. -/
def Guards (host : Host κ) (strict : Bool) : Step κ → Schema κ → Prop
  | elements _, _ | values _, _ => True
  | fields _, inner | positions _, inner => inner.Rests host strict
  | _, _ => False

/-- Items and values are less than what they lie in. -/
theorem HandsItems.guards {step : Step κ} {inner : Schema κ} (handed : step.HandsItems inner) :
    step.Guards host strict inner := by
  cases step with
  | elements | values => trivial
  | _ => cases handed

variable {step : Step κ} {value : Value} {path place : Path} {scope inside : Scope}
  {schema : Schema κ} {input : Option Value}

/-- A step hands on nothing that is nested more than what it was given. -/
theorem Calls.receives (calls : step.Calls value path scope schema input place inside)
    (positive : 0 < level) (lower : step.role = .rebuild → value.height < level) :
    schema.Receives host strict level input := by
  cases calls with
  | key => exact positive
  | element found =>
    exact (Value.height_lt_array (List.mem_of_getElem? found)).trans (lower rfl)
  | value listed => exact (Value.height_lt_fields listed).trans (lower rfl)
  | @field declared field _ entries _ _ _ given =>
    cases present : entries.lookup field.1 with
    | none => exact .inl positive
    | some found => exact (Value.height_lt_of_lookup given present).trans (lower rfl)
  | @position schemas _ items index _ _ _ =>
    cases present : items[index]? with
    | none => exact .inl positive
    | some item =>
      exact (Value.height_lt_array (List.mem_of_getElem? present)).trans (lower rfl)
  | member => exact lower rfl

/-- A guarded step hands on nothing that is nested as much as what it was given. -/
theorem Calls.receives_of_guards (calls : step.Calls value path scope schema input place inside)
    (guarded : step.Guards host strict schema) (lower : value.height ≤ level) :
    schema.Receives host strict level input := by
  cases calls with
  | element found =>
    exact (Value.height_lt_array (List.mem_of_getElem? found)).trans_le lower
  | value listed => exact (Value.height_lt_fields listed).trans_le lower
  | @field declared field _ entries _ _ _ given =>
    cases present : entries.lookup field.1 with
    | none => exact .inr guarded
    | some found => exact (Value.height_lt_of_lookup given present).trans_le lower
  | @position schemas _ items index _ _ _ =>
    cases present : items[index]? with
    | none => exact .inr guarded
    | some item => exact (Value.height_lt_array (List.mem_of_getElem? present)).trans_le lower
  | key | member => cases guarded

/-- Only steps that rebuild are guarded. -/
theorem Guards.role (guarded : step.Guards host strict schema) : step.role = .rebuild := by
  cases step with
  | check | keys => cases guarded
  | _ => rfl

end Step

/-! ## Names looked up inside one another -/

namespace Schema

variable {host : Host κ} {names : Finset String} {strict : Bool} {path : Path} {scope : Scope}

/-- Validate a value, or undefined input, at a place, as `validateAt` does, but look names up inside
one another to a number of unfoldings only. -/
def validateWithin (host : Host κ) :
    Nat → Nat → Schema κ → Option Value → Path → Scope → Run (Option Value)
  | 0, _, _, _, _, _ => .unfinished
  | depth + 1, unfoldings, built body, value, path, scope =>
    body.validate host
      ⟨fun member => member.validateWithin host depth unfoldings,
        fun member => member.resolvedKind host unfoldings⟩
      value path scope
  | _ + 1, 0, deferred _, _, _, _ => .unfinished
  | depth + 1, unfoldings + 1, deferred name, value, path, scope => do
    let target ← Run.ofMisuse (host.definitions name)
    target.validateWithin host depth unfoldings value path scope

/-- A validation that ends within some unfoldings ends the same when only the depth is limited. -/
theorem validateWithin_agrees {depth unfoldings more : Nat} (enough : depth + unfoldings ≤ more)
    (schema : Schema κ) (value : Option Value) (path : Path) (scope : Scope) :
    (schema.validateWithin host depth unfoldings value path scope).Agrees Eq
      (schema.validateAt host more value path scope) := by
  induction depth generalizing unfoldings more schema value path scope with
  | zero => exact .unfinished _
  | succ depth ih =>
    obtain ⟨more, rfl⟩ : ∃ less, more = less + 1 := ⟨more - 1, by omega⟩
    cases schema with
    | built body =>
      have agree : Members.Agree .same
          ⟨fun member => member.validateWithin host depth unfoldings,
            fun member => member.resolvedKind host unfoldings⟩ (membersAt host more) := by
        rintro schema _ rfl
        refine ⟨?_, resolvedKind_agrees (by omega) schema⟩
        rintro value path scope _ _ ⟨rfl, rfl⟩
        exact ih (by omega) schema value path scope
      exact Body.validate_agrees (.refl host body) agree ⟨rfl, rfl⟩ value
    | deferred name =>
      cases unfoldings with
      | zero => exact .unfinished _
      | succ unfoldings =>
        have further : depth + unfoldings ≤ more := by omega
        exact (Run.Agrees.ofMisuse _).bind fun target => ih further target value path scope

/-- What a step hands values on to is smaller than the body of the step. -/
theorem sizeOf_lt_of_handed {body : Body κ} {step : Step κ} {inner : Schema κ}
    (taken : step ∈ body.steps) (handed : inner ∈ step.schemas) :
    sizeOf inner < sizeOf (built body) := by
  have within : sizeOf inner < sizeOf step := by
    cases step with
    | check condition => cases handed
    | keys schema | elements schema | values schema =>
      obtain rfl := List.mem_singleton.mp handed
      simp
    | fields declared =>
      obtain ⟨field, listed, rfl⟩ := List.mem_map.mp handed
      have part := List.sizeOf_lt_of_mem listed
      obtain ⟨name, schema⟩ := field
      simp only [Prod.mk.sizeOf_spec, Step.fields.sizeOf_spec] at part ⊢
      omega
    | positions schemas | members schemas =>
      have part := List.sizeOf_lt_of_mem (show inner ∈ schemas from handed)
      simp only [Step.positions.sizeOf_spec, Step.members.sizeOf_spec]
      omega
  have around := List.sizeOf_lt_of_mem taken
  obtain ⟨settings, steps⟩ := body
  dsimp only at around
  simp only [Schema.built.sizeOf_spec, Body.mk.sizeOf_spec]
  omega

/-- The kind of a schema over a family is found within as many unfoldings as bound the ranks of the
names that it exposes. -/
theorem resolvedKind_endsWithin_of_family {guards : Step κ → Schema κ → Prop}
    (family : Family host guards names) {schema : Schema κ} (covered : schema.Over names)
    {exposure unfoldings : Nat} (exposed : schema.RanksBelow host guards names exposure)
    (affordable : exposure ≤ unfoldings) {faults : Fault → Prop} :
    (schema.resolvedKind host unfoldings).EndsWithin faults False := by
  induction unfoldings generalizing schema exposure with
  | zero =>
    cases schema with
    | built body => exact .pure _
    | deferred name =>
      have ranked := exposed name (.here name)
      omega
  | succ unfoldings ih =>
    cases schema with
    | built body => exact .pure _
    | deferred name =>
      have ranked := exposed name (.here name)
      obtain ⟨target, defined, inside⟩ := family.closed name covered.deferred
      rw [resolvedKind, defined]
      exact ih inside (.target family defined inside) (by omega)

/-- What is left of the depth and the unfoldings suffices to validate the input by the schema, where
the definitions of the names are of bounded size. -/
structure Affords (host : Host κ) (names : Finset String) (strict : Bool)
    (size depth unfoldings : Nat) (schema : Schema κ) (input : Option Value) : Prop where
  /-- The schema is one over the names. -/
  covered : schema.Over names
  /-- Every body on the way is modest. -/
  modest : schema.Throughout host Body.Modest
  /-- All names can be looked up for each level of nesting, and before that those exposed. -/
  funded : ∃ level exposure, schema.Receives host strict level input ∧
    schema.RanksBelow host (Step.Guards host strict) names exposure ∧
      level * names.card + exposure ≤ unfoldings
  /-- The depth lasts to the next name, and from each name to the one after it. -/
  deep : sizeOf schema + unfoldings * (size + 1) ≤ depth

namespace Affords

variable {size depth unfoldings : Nat} {input : Option Value}

/-- To afford anything takes some depth. -/
theorem depth_pos {schema : Schema κ}
    (affords : schema.Affords host names strict size depth unfoldings input) : 0 < depth := by
  have positive : 1 ≤ sizeOf schema := by cases schema <;> exact Nat.le_add_right 1 _
  have deep := affords.deep
  omega

/-- What a name stands for is afforded with one unfolding less. -/
theorem target (family : Family host (Step.Guards host strict) names)
    (sized : ∀ name ∈ names, ∀ target, host.definitions name = .ok target → sizeOf target ≤ size)
    {name : String}
    (affords : (deferred name).Affords host names strict size (depth + 1) unfoldings input) :
    ∃ fewer target, unfoldings = fewer + 1 ∧ host.definitions name = .ok target ∧
      target.Affords host names strict size depth fewer input := by
  obtain ⟨covered, modest, ⟨level, exposure, receives, exposed, affordable⟩, deep⟩ := affords
  have ranked := exposed name (.here name)
  obtain ⟨fewer, rfl⟩ : ∃ fewer, unfoldings = fewer + 1 := ⟨unfoldings - 1, by omega⟩
  obtain ⟨target, defined, inside⟩ := family.closed name covered.deferred
  have bounded := sized name covered.deferred target defined
  have lasts : sizeOf target + fewer * (size + 1) ≤ depth := by
    rw [Nat.succ_mul] at deep
    omega
  have funded : level * names.card + rank host (Step.Guards host strict) names name ≤ fewer := by
    omega
  exact ⟨fewer, target, rfl, defined, inside, modest.target defined,
    ⟨level, _, receives.target defined, .target family defined inside, funded⟩, lasts⟩

/-- Whatever a body calls on is afforded, with the depth that is left. -/
theorem call (family : Family host (Step.Guards host strict) names) {body : Body κ}
    (affords : (built body).Affords host names strict size (depth + 1) unfoldings input)
    {given held : Value} (mode : scope.isStrict = strict)
    (received : (Body.receive host body.settings input path scope).result? = some (some given))
    (defined : given ≠ .null) {step : Step κ} (taken : step ∈ body.steps)
    (same : held = given ∨ step.role = .check) {schema : Schema κ} {value : Option Value}
    {place : Path} {inside : Scope}
    (calls : step.Calls held path scope schema value place inside) :
    schema.Affords host names strict size depth unfoldings value := by
  obtain ⟨covered, modest, ⟨level, exposure, receives, exposed, affordable⟩, deep⟩ := affords
  have handed := calls.handed
  have smaller := sizeOf_lt_of_handed taken handed
  have lasts : sizeOf schema + unfoldings * (size + 1) ≤ depth := by omega
  have low := receives.height_lt modest.here mode received defined
  have kept : step.role = .rebuild → held = given := by
    intro rebuilds
    refine same.resolve_right fun checks => ?_
    rw [rebuilds] at checks
    cases checks
  refine ⟨covered.member taken handed, modest.member taken handed, ?_, lasts⟩
  by_cases guarded : step.Guards host strict schema
  · -- What is received is nested less, so all names can be afforded once more.
    obtain ⟨lower, rfl⟩ : ∃ lower, level = lower + 1 := ⟨level - 1, by omega⟩
    obtain rfl := kept guarded.role
    have funded : lower * names.card + names.card ≤ unfoldings := by
      rw [Nat.succ_mul] at affordable
      omega
    exact ⟨lower, names.card, calls.receives_of_guards guarded (Nat.le_of_lt_succ low),
      .of_over family (covered.member taken handed), funded⟩
  · have positive : 0 < level := by omega
    exact ⟨level, exposure, calls.receives positive fun rebuilds => kept rebuilds ▸ low,
      exposed.member taken handed guarded, affordable⟩

/-- The kind of a member of a union is found within the unfoldings that are left. -/
theorem kind (family : Family host (Step.Guards host strict) names) {body : Body κ}
    (affords : (built body).Affords host names strict size depth unfoldings input)
    {schemas : List (Schema κ)} (taken : .members schemas ∈ body.steps) {schema : Schema κ}
    (listed : schema ∈ schemas) {faults : Fault → Prop} :
    (schema.resolvedKind host unfoldings).EndsWithin faults False := by
  obtain ⟨covered, _, ⟨level, exposure, _, exposed, affordable⟩, _⟩ := affords
  have bare : ¬ Step.Guards host strict (.members schemas) schema := id
  exact resolvedKind_endsWithin_of_family family (covered.member taken listed)
    (exposed.member taken listed bare) (Nat.le_trans (Nat.le_add_left _ _) affordable)

/-- What is afforded completes. -/
theorem endsWithin (family : Family host (Step.Guards host strict) names)
    (sized : ∀ name ∈ names, ∀ target, host.definitions name = .ok target → sizeOf target ≤ size)
    {schema : Schema κ} (affords : schema.Affords host names strict size depth unfoldings input)
    (path : Path) (mode : scope.isStrict = strict) :
    (schema.validateWithin host depth unfoldings input path scope).EndsWithin
      (fun _ => True) False := by
  induction depth generalizing unfoldings schema input path scope with
  | zero => exact absurd affords.depth_pos (Nat.lt_irrefl 0)
  | succ depth ih =>
    cases schema with
    | built body =>
      refine Body.validate_endsWithin (fun _ _ => trivial) fun given received defined => ?_
      refine Body.takeSteps_endsWithin affords.modest.here.single fun step taken held same => ?_
      refine Step.run_endsWithin (fun _ _ => trivial) (fun _ _ _ _ _ => trivial)
        (fun _ _ _ _ _ => trivial) ?_ ?_
      · rintro schemas rfl schema listed
        exact affords.kind family taken listed
      · intro schema value place inside calls
        exact ih (affords.call family mode received defined taken same calls) place
          (calls.isStrict.trans mode)
    | deferred name =>
      obtain ⟨fewer, target, rfl, defined, later⟩ := affords.target family sized
      rw [validateWithin, defined]
      exact ih later path mode

end Affords

/-- The definitions of finitely many names are of bounded size. -/
theorem exists_size_le (host : Host κ) (names : Finset String) :
    ∃ size, ∀ name ∈ names, ∀ target, host.definitions name = .ok target →
      sizeOf target ≤ size := by
  let size (name : String) : Nat := (host.definitions name).toOption.elim 0 sizeOf
  refine ⟨names.sup size, fun name known target defined => ?_⟩
  have same : size name = sizeOf target := by
    simp only [size, defined, Except.toOption, Option.elim]
  exact same ▸ Finset.le_sup known

/-- A schema over a family is afforded at first with as many unfoldings as there are names for each
level of nesting of the input and two levels more. -/
theorem Affords.start (family : Family host (Step.Guards host strict) names) (size : Nat)
    {schema : Schema κ} (covered : schema.Over names) (modest : schema.Throughout host Body.Modest)
    (input : Option Value) :
    schema.Affords host names strict size
      (sizeOf schema + (input.elim 0 Value.height + 2) * names.card * (size + 1))
      ((input.elim 0 Value.height + 2) * names.card) input := by
  have receives : schema.Receives host strict (input.elim 0 Value.height + 1) input := by
    cases input with
    | some value => exact Nat.lt_succ_self _
    | none => exact .inl Nat.one_pos
  exact ⟨covered, modest, ⟨_, names.card, receives, .of_over family covered,
    (Nat.succ_mul _ _).ge⟩, Nat.le_refl _⟩

/-- If every circle of definitions leads through items of an array or values of an object, a schema
over them completes on every input in both modes, at a place that does not matter, and a number of
names looked up inside one another suffices that the nesting of the input and the number of
definitions determine. -/
theorem validateAt_collections_complete (host : Host κ) (names : Finset String)
    (family : Family host Step.HandsItems names) (schema : Schema κ) (covered : schema.Over names)
    (modest : schema.Throughout host Body.Modest) (input : Option Value) :
    ∃ depth, ∀ path scope,
      (schema.validateWithin host depth ((input.elim 0 Value.height + 2) * names.card) input path
        scope).Completes ∧
      ∀ more, depth + (input.elim 0 Value.height + 2) * names.card ≤ more →
        (schema.validateAt host more input path scope).verdict =
          (schema.validateWithin host depth ((input.elim 0 Value.height + 2) * names.card) input
            path scope).verdict := by
  obtain ⟨size, sized⟩ := exists_size_le host names
  refine ⟨sizeOf schema + (input.elim 0 Value.height + 2) * names.card * (size + 1),
    fun path scope => ?_⟩
  have guarded : Family host (Step.Guards host scope.isStrict) names :=
    family.mono fun _ _ handed => handed.guards
  have ends := (Affords.start guarded size covered modest input).endsWithin guarded sized path rfl
  refine ⟨ends.completes, fun more enough => ?_⟩
  exact (validateWithin_agrees enough schema input path scope).verdict_eq ends.completes

end Schema

/-! ## Trees, an example -/

/-- The children of a tree are trees. -/
def children : Body Unit := (Body.ofKind .array).refine (.elements (.deferred "tree"))

/-- A tree has a value and children. -/
def tree : Body Unit := .shape [("value", .built (.ofKind .number)), ("children", .built children)]

/-- A host that knows trees. -/
def trees : Host Unit where
  callback _ _ _ := none
  compute _ _ _ := .null
  now := ⟨0, 0⟩
  definitions name := if name = "tree" then .ok (.built tree) else .error .noMembers

/-- A tree with one child. -/
def treeGiven : Value :=
  .object [("children", .array [.object [("children", .array []), ("value", .number 1)]]),
    ("value", .number 0)]

/-- A tree leads to trees only. -/
theorem tree_over : (Schema.built tree).Over {"tree"} := by
  refine .built fun step taken inner handed => ?_
  obtain rfl := List.mem_singleton.mp taken
  rcases List.mem_pair.mp handed with rfl | rfl
  · exact .built fun step taken => by cases taken
  · refine .built fun step taken inner handed => ?_
    obtain rfl := List.mem_singleton.mp taken
    obtain rfl := List.mem_singleton.mp handed
    exact .of_mem (Finset.mem_singleton_self _)

/-- A tree leads to trees through the items of an array only. -/
theorem tree_family : Family trees Step.HandsItems {"tree"} where
  closed name known := by
    obtain rfl := Finset.mem_singleton.mp known
    exact ⟨.built tree, rfl, tree_over⟩
  guarded name known circle := by
    obtain rfl := Finset.mem_singleton.mp known
    obtain ⟨other, ⟨target, defined, exposed⟩, _⟩ := Relation.TransGen.head'_iff.mp circle
    obtain rfl : Schema.built tree = target := Except.ok.inj defined
    cases exposed with
    | member taken handed _ inside =>
      obtain rfl := List.mem_singleton.mp taken
      rcases List.mem_pair.mp handed with rfl | rfl
      · cases inside with
        | member taken => cases taken
      · cases inside with
        | member taken _ bare _ =>
          obtain rfl := List.mem_singleton.mp taken
          exact bare trivial

/-- Trees are modest. -/
theorem tree_modest : (Schema.deferred "tree").Throughout trees Body.Modest := by
  let among (schema : Schema Unit) : Prop := schema = .deferred "tree" ∨ schema = .built tree ∨
    schema = .built children ∨ schema = .built (.ofKind .number)
  have bodies : ∀ body, among (.built body) →
      body.Modest ∧ ∀ step ∈ body.steps, ∀ inner ∈ step.schemas, among inner := by
    intro body known
    rcases known with same | same | same | same <;> cases same
    · refine ⟨.usual (by decide) rfl, fun step taken inner handed => ?_⟩
      obtain rfl := List.mem_singleton.mp taken
      rcases List.mem_pair.mp handed with rfl | rfl
      · exact .inr (.inr (.inr rfl))
      · exact .inr (.inr (.inl rfl))
    · refine ⟨.usual (by decide) rfl, fun step taken inner handed => ?_⟩
      obtain rfl := List.mem_singleton.mp taken
      obtain rfl := List.mem_singleton.mp handed
      exact .inl rfl
    · exact ⟨.usual (by decide) rfl, fun step taken => by cases taken⟩
  refine .of_closed bodies (fun name target known defined => ?_) (.inl rfl)
  rcases known with same | same | same | same <;> cases same
  exact .inr (.inl (Except.ok.inj defined).symm)

/-- A tree completes within five unfoldings. -/
theorem Schema.validateAt_collections_complete_tree :
    Family trees Step.HandsItems {"tree"} ∧ (Schema.deferred "tree" : Schema Unit).Over {"tree"} ∧
      (Schema.deferred "tree").Throughout trees Body.Modest ∧
      ∃ depth, ∀ path scope,
        ((Schema.deferred "tree").validateWithin trees depth 5 (some treeGiven) path
          scope).Completes ∧
        ∀ more, depth + 5 ≤ more →
          ((Schema.deferred "tree").validateAt trees more (some treeGiven) path scope).verdict =
            ((Schema.deferred "tree").validateWithin trees depth 5 (some treeGiven) path
              scope).verdict :=
  ⟨tree_family, .of_mem (Finset.mem_singleton_self _), tree_modest,
    validateAt_collections_complete trees {"tree"} tree_family (.deferred "tree")
      (.of_mem (Finset.mem_singleton_self _)) tree_modest (some treeGiven)⟩

/-! ## Fields and positions -/

namespace Schema

/-- If every circle of definitions leads through items, values, or fields and positions that take
undefined input no further, a schema over them completes on every input in the mode, at every depth
from some depth on that the place does not matter for. -/
theorem validateAt_members_complete (host : Host κ) (mode : Mode) (names : Finset String)
    (family : Family host (Step.Guards host mode.isStrict) names) (schema : Schema κ)
    (covered : schema.Over names) (modest : schema.Throughout host Body.Modest)
    (input : Option Value) :
    ∃ depth, ∀ more, depth ≤ more → ∀ path scope, scope.mode = mode →
      (schema.validateAt host more input path scope).Completes := by
  obtain ⟨size, sized⟩ := exists_size_le host names
  let unfoldings := (input.elim 0 Value.height + 2) * names.card
  let depth := sizeOf schema + unfoldings * (size + 1)
  refine ⟨depth + unfoldings, fun more enough path scope same => ?_⟩
  have strict : scope.isStrict = mode.isStrict := congrArg Mode.isStrict same
  have ends := (Affords.start family size covered modest input).endsWithin family sized path strict
  exact (validateWithin_agrees enough schema input path scope).completes ends.completes

end Schema

/-- The step hands on the fields of an object or the positions of an array. -/
def Step.HandsParts : Step κ → Schema κ → Prop
  | fields _, _ | positions _, _ => True
  | _, _ => False

/-- A node has a text, and another node of some name comes next. -/
def node (name : String) : Body Unit :=
  .shape [("value", .built (.ofKind .string)), ("next", .deferred name)]

/-- A link is a node after which a link comes next. -/
def link : Body Unit := node "link"

/-- A chain is a node after which a chain comes next or null, which must be given. -/
def chain : Body Unit := [.required true, .nullable true].foldl Body.refine (node "chain")

/-- A host that knows links and chains. -/
def links : Host Unit where
  callback _ _ _ := none
  compute _ _ _ := .null
  now := ⟨0, 0⟩
  definitions name :=
    if name = "link" then .ok (.built link)
    else if name = "chain" then .ok (.built chain)
    else .error .noMembers

/-- A node leads to the nodes that come next only. -/
theorem node_over (name : String) : (Schema.built (node name)).Over {name} := by
  refine .built fun step taken inner handed => ?_
  obtain rfl := List.mem_singleton.mp taken
  rcases List.mem_pair.mp handed with rfl | rfl
  · exact .built fun step taken => by cases taken
  · exact .of_mem (Finset.mem_singleton_self _)

/-- What holds of nodes and texts holds throughout a chain of nodes. -/
theorem node_throughout {property : Body Unit → Prop} {name : String} {body : Body Unit}
    (defined : links.definitions name = .ok (.built body)) (same : body.steps = (node name).steps)
    (whole : property body) (text : property (.ofKind .string)) :
    (Schema.deferred name).Throughout links property := by
  let among (schema : Schema Unit) : Prop := schema = .deferred name ∨ schema = .built body ∨
    schema = .built (.ofKind .string)
  have bodies : ∀ body, among (.built body) →
      property body ∧ ∀ step ∈ body.steps, ∀ inner ∈ step.schemas, among inner := by
    intro other known
    rcases known with same | same | same <;> cases same
    · refine ⟨whole, fun step taken inner handed => ?_⟩
      rw [same] at taken
      obtain rfl := List.mem_singleton.mp taken
      rcases List.mem_pair.mp handed with rfl | rfl
      · exact .inr (.inr rfl)
      · exact .inl rfl
    · exact ⟨text, fun step taken => by cases taken⟩
  refine .of_closed bodies (fun other target known found => ?_) (.inl rfl)
  rcases known with same | same | same <;> cases same
  exact .inr (.inl (Except.ok.inj (defined.symm.trans found)).symm)

/-- A definition by a node is a family if the next node is guarded. -/
theorem node_family {guards : Step Unit → Schema Unit → Prop} {name : String} {body : Body Unit}
    (defined : links.definitions name = .ok (.built body)) (same : body.steps = (node name).steps)
    (guarded : ∀ declared, guards (.fields declared) (.deferred name)) :
    Family links guards {name} where
  closed other known := by
    obtain rfl := Finset.mem_singleton.mp known
    refine ⟨.built body, defined, .built fun step taken inner handed => ?_⟩
    rw [same] at taken
    exact (node_over other).member taken handed
  guarded other known circle := by
    obtain rfl := Finset.mem_singleton.mp known
    obtain ⟨other, ⟨target, found, exposed⟩, _⟩ := Relation.TransGen.head'_iff.mp circle
    obtain rfl := Except.ok.inj (defined.symm.trans found)
    cases exposed with
    | member taken handed bare inside =>
      rw [same] at taken
      obtain rfl := List.mem_singleton.mp taken
      rcases List.mem_pair.mp handed with rfl | rfl
      · cases inside with
        | member taken => cases taken
      · exact bare (guarded _)

/-- Chains are known. -/
theorem chain_defined : links.definitions "chain" = .ok (.built chain) := rfl

/-- A chain of two nodes. -/
def chainGiven : Value :=
  .object [("next", .object [("next", .null), ("value", .string "b")]), ("value", .string "a")]

/-- Chains are guarded where everything is checked, since what comes next is required. -/
theorem chain_family : Family links (Step.Guards links true) {"chain"} := by
  refine node_family chain_defined rfl fun declared body resolved => ?_
  cases resolved with
  | deferred found resolved =>
    obtain rfl := Except.ok.inj (chain_defined.symm.trans found)
    cases resolved
    exact .inl ⟨rfl, rfl⟩

/-- Chains are modest. -/
theorem chain_modest : (Schema.deferred "chain").Throughout links Body.Modest :=
  node_throughout chain_defined rfl (.usual (by decide) rfl) (.usual (by decide) rfl)

/-- A chain completes where everything is checked. -/
theorem Schema.validateAt_members_complete_chain :
    Family links (Step.Guards links Mode.strict.isStrict) {"chain"} ∧
      (Schema.deferred "chain" : Schema Unit).Over {"chain"} ∧
      (Schema.deferred "chain").Throughout links Body.Modest ∧
      ∃ depth, ∀ more, depth ≤ more → ∀ path scope, scope.mode = .strict →
        ((Schema.deferred "chain").validateAt links more (some chainGiven) path scope).Completes :=
  ⟨chain_family, .of_mem (Finset.mem_singleton_self _), chain_modest,
    validateAt_members_complete links .strict {"chain"} chain_family (.deferred "chain")
      (.of_mem (Finset.mem_singleton_self _)) chain_modest (some chainGiven)⟩

/-! ## Links that never end -/

/-- Two links as they may be given. -/
def linksGiven : Value :=
  .object [("next", .object [("value", .string "b")]), ("value", .string "a")]

/-- Links are known. -/
theorem link_defined : links.definitions "link" = .ok (.built link) := rfl

namespace Schema

variable {path : Path} {scope : Scope}

/-- A text, or the default in its place, is found to every depth but none. -/
theorem validateAt_text (depth : Nat) (path : Path) (scope : Scope) {input : Option Value}
    (valid : input = none ∨ ∃ text, input = some (.string text)) :
    ∃ result, (built (.ofKind .string)).validateAt links (depth + 1) input path scope =
      pure result := by
  obtain ⟨current, root, mode⟩ := scope
  rcases valid with rfl | ⟨text, rfl⟩ <;> cases mode <;> exact ⟨_, rfl⟩

/-- A link never ends if the link that comes next does not. -/
theorem link_unfinished {depth : Nat} {input : Option Value} {entries : List (String × Value)}
    (received : input.or (some (.object [])) = some (.object entries))
    (valid : entries.lookup "value" = none ∨
      ∃ text, entries.lookup "value" = some (.string text))
    (next : ((Schema.deferred "link").validateAt links depth (entries.lookup "next")
      (path.key "next") (scope.withCurrent (.object entries))).verdict = .unfinished) :
    ((Schema.deferred "link").validateAt links (depth + 2) input path scope).verdict =
      .unfinished := by
  have fields : ((membersAt links depth).fields entries path (scope.withCurrent (.object entries))
      [("value", .built (.ofKind .string)), ("next", .deferred "link")] []).verdict =
        .unfinished := by
    cases depth with
    | zero => rfl
    | succ depth =>
      obtain ⟨result, found⟩ := validateAt_text depth (path.key "value")
        (scope.withCurrent (.object entries)) valid
      rw [Members.fields]
      show (((built (.ofKind .string)).validateAt links (depth + 1) _ _ _) >>= _).verdict = _
      rw [found, Run.verdict_pure_bind]
      exact Run.verdict_bind_unfinished next
  have taken : (Step.runFields (membersAt links depth)
      [("value", .built (.ofKind .string)), ("next", .deferred "link")] false (.object entries)
      path scope).verdict = .unfinished :=
    Run.verdict_bind_unfinished fields
  have processed : (link.process links (membersAt links depth) (.object entries) path
      scope).verdict = .unfinished := by
    obtain ⟨current, root, mode⟩ := scope
    cases mode <;> exact Run.verdict_bind_unfinished (Run.verdict_bind_unfinished taken)
  have arrived : Body.receive links link.settings input path scope =
      pure (some (.object entries)) := by
    cases input <;> rw [← received] <;> rfl
  show (link.validate links (membersAt links depth) input path scope).verdict = _
  rw [Body.validate, arrived, Run.verdict_pure_bind]
  exact Run.verdict_bind_unfinished processed

/-- A link never ends where nothing is given. -/
theorem link_missing_unfinished (depth : Nat) :
    ((Schema.deferred "link").validateAt links depth none path scope).verdict = .unfinished := by
  induction depth using Nat.strong_induction_on generalizing path scope with
  | _ depth ih =>
    match depth with
    | 0 | 1 => rfl
    | depth + 2 => exact link_unfinished rfl (.inl rfl) (ih depth (by omega))

/-- Every definition stands for a body and every circle of definitions leads through a field or a
position, but links that are two deep never end, with defaults as they are from the start: the link
that is not given is a link with its default, for which no link is given. -/
theorem validateAt_links_unfinished :
    links.definitions "link" = .ok (.built link) ∧ Family links Step.HandsParts {"link"} ∧
      (Schema.deferred "link").Throughout links
        (fun body => body.settings.default = .ofKind body.settings.kind) ∧
      ∀ depth mode, ((Schema.deferred "link").validateAt links depth (some linksGiven) .root
        (.new mode)).verdict = .unfinished := by
  have single : ∀ depth path scope, ((Schema.deferred "link").validateAt links depth
      (some (.object [("value", .string "b")])) path scope).verdict = .unfinished := by
    intro depth path scope
    match depth with
    | 0 | 1 => rfl
    | depth + 2 => exact link_unfinished rfl (.inr ⟨"b", rfl⟩) (link_missing_unfinished depth)
  refine ⟨link_defined, node_family link_defined rfl fun _ => trivial,
    node_throughout link_defined rfl rfl rfl, fun depth mode => ?_⟩
  match depth with
  | 0 | 1 => rfl
  | depth + 2 => exact link_unfinished rfl (.inr ⟨"a", rfl⟩) (single depth _ _)

end Schema

end Assay
