import Assay.Proofs.Depth

/-!
# Surroundings

What a schema makes of its input can depend on the surroundings only where something on the way
looks at them. So a schema agrees with itself in all surroundings that its defaults and checks do
not tell apart (`Schema.validateAt_agrees_around`), and by any host whose defaults and checks are not
told apart there (`Schema.validateAt_agrees_between`). A body is self-contained when it has neither a
callback nor a rule on the fields beside nor a computed default (`Body.SelfContained`). Where all
bodies on the way are, the schema accepts the same wherever it stands, with the same result, and its
faults move with it (`Fault.Moved`).
-/
namespace Assay

variable {κ : Type} {host : Host κ}

/-- Schemas that are the same have the same types as they are shown. -/
theorem Schema.typeNames_eq {related : Schema κ → Schema κ → Prop}
    (same : ∀ schema another, related schema another → schema = another)
    {schemas others : List (Schema κ)} (listed : List.Forall₂ related schemas others) :
    schemas.map Schema.typeName = others.map Schema.typeName := by
  have equal := listed.imp same
  rw [List.forall₂_eq_eq_eq] at equal
  rw [equal]

/-- Hosts by which names stand for the same schemas find the same kinds. -/
theorem Schema.resolvedKind_congr {beyond : Host κ}
    (named : beyond.definitions = host.definitions) (depth : Nat) (schema : Schema κ) :
    schema.resolvedKind beyond depth = schema.resolvedKind host depth := by
  induction depth generalizing schema with
  | zero => cases schema <;> rfl
  | succ depth ih =>
    cases schema with
    | built body => rfl
    | deferred name => simp only [resolvedKind, named, ih]

/-- A schema agrees with itself by two hosts, each in its surroundings, that no default and no check
on the way tells apart. -/
theorem Schema.validateAt_agrees_between {beyond : Host κ} {comparison : Comparison κ}
    {property : Body κ → Prop} (named : beyond.definitions = host.definitions)
    (schemas : comparison.schema = fun schema another =>
      schema = another ∧ schema.Throughout host property)
    (defaults : ∀ body, property body → ∀ path scope other beside,
      comparison.place path scope other beside →
        body.settings.default.resolve host path scope =
          body.settings.default.resolve beyond other beside)
    (checks : ∀ body, property body → ∀ condition, .check condition ∈ body.steps →
      condition.Agrees comparison host beyond)
    {schema : Schema κ} (all : schema.Throughout host property) (depth : Nat)
    (value : Option Value) {path other : Path} {scope beside : Scope}
    (placed : comparison.place path scope other beside) :
    (schema.validateAt host depth value path scope).Agrees comparison.fault
      (schema.validateAt beyond depth value other beside) := by
  induction depth generalizing schema value path other scope beside with
  | zero => exact .unfinished _
  | succ depth ih =>
    cases schema with
    | built body =>
      have agree : (membersAt host depth).Agree comparison (membersAt beyond depth) := by
        intro schema another related
        rw [schemas] at related
        obtain ⟨rfl, inside⟩ := related
        have kinds : (schema.resolvedKind host depth).Agrees comparison.fault
            (schema.resolvedKind beyond depth) := by
          rw [resolvedKind_congr named]
          exact resolvedKind_agrees (Nat.le_refl depth) schema
        exact ⟨fun value _ _ _ _ placed => ih inside value placed, kinds⟩
      have steps : List.Forall₂ (Step.Alike comparison.schema) body.steps body.steps := by
        refine List.forall₂_same.mpr fun step taken => .refl step fun inner handed => ?_
        rw [schemas]
        exact ⟨rfl, all.member taken handed⟩
      have alike : Body.Alike comparison host beyond body body :=
        ⟨rfl, defaults body all.here, checks body all.here, steps⟩
      exact Body.validate_agrees alike agree placed value
    | deferred name =>
      rw [validateAt, validateAt, named]
      cases defined : host.definitions name with
      | ok target => exact ih (all.target defined) value placed
      | error misuse => exact fun _ => .misused misuse

/-- A schema agrees with itself in surroundings that no default and no check on the way tells
apart. -/
theorem Schema.validateAt_agrees_around {comparison : Comparison κ} {property : Body κ → Prop}
    (schemas : comparison.schema = fun schema another =>
      schema = another ∧ schema.Throughout host property)
    (defaults : ∀ body, property body → ∀ path scope other beside,
      comparison.place path scope other beside →
        body.settings.default.resolve host path scope =
          body.settings.default.resolve host other beside)
    (checks : ∀ body, property body → ∀ condition, .check condition ∈ body.steps →
      condition.Agrees comparison host host)
    {schema : Schema κ} (all : schema.Throughout host property) (depth : Nat)
    (value : Option Value) {path other : Path} {scope beside : Scope}
    (placed : comparison.place path scope other beside) :
    (schema.validateAt host depth value path scope).Agrees comparison.fault
      (schema.validateAt host depth value other beside) :=
  validateAt_agrees_between rfl schemas defaults checks all depth value placed

/-! ## Another place -/

/-- Whether a check looks at what is around a value: at the fields beside, or by a callback. -/
def Check.looksAround : Check κ → Bool
  | presence .. | custom _ => true
  | _ => false

/-- The body looks at nothing but the value: none of its checks looks around, and its default is not
computed. -/
structure Body.SelfContained (body : Body κ) : Prop where
  /-- What is around the value does not matter to the checks. -/
  alone : ∀ condition, .check condition ∈ body.steps → condition.looksAround = false
  /-- The host does not compute the default, the current time apart. -/
  supplied : ∀ name, body.settings.default ≠ .computed name

/-- Wherever a self-contained body stands, the same takes the place of undefined input. -/
theorem Body.SelfContained.resolve_eq {body : Body κ} (contained : body.SelfContained)
    (path other : Path) (scope beside : Scope) :
    body.settings.default.resolve host path scope =
      body.settings.default.resolve host other beside := by
  cases default : body.settings.default with
  | computed name => exact absurd default (contained.supplied name)
  | _ => rfl

/-- Wherever a self-contained body stands, its checks object to the same. -/
theorem Body.SelfContained.objection?_eq {body : Body κ} (contained : body.SelfContained)
    {condition : Check κ} (listed : .check condition ∈ body.steps) (value : Value)
    (path other : Path) (scope beside : Scope) :
    condition.objection? host value path scope = condition.objection? host value other beside := by
  have alone := contained.alone condition listed
  cases condition with
  | presence | custom => cases alone
  | _ => rfl

/-- The faults are the same but for their places, each of which lies under the one path in the one
fault where it lies under the other path in the other fault. -/
inductive Fault.Moved (path other : Path) : Fault → Fault → Prop
  /-- One reason. -/
  | located (suffix : List Segment) (reason : Reason) :
      Moved path other (.located ⟨path.segments ++ suffix⟩ reason)
        (.located ⟨other.segments ++ suffix⟩ reason)
  /-- One union that refuses one value, for reasons that are the same but for their places. -/
  | noMember (suffix : List Segment) (names : List String) (value : Value)
      {causes later : List Fault} (caused : List.Forall₂ (Moved path other) causes later) :
      Moved path other (Members.noMemberFault names value ⟨path.segments ++ suffix⟩ causes)
        (Members.noMemberFault names value ⟨other.segments ++ suffix⟩ later)

/-- Faults that moved have places with the same rest of the way. -/
theorem Fault.Moved.path {path other : Path} {fault later : Fault}
    (moved : fault.Moved path other later) :
    ∃ suffix, fault.path.segments = path.segments ++ suffix ∧
      later.path.segments = other.segments ++ suffix := by
  cases moved with
  | located suffix reason => exact ⟨suffix, rfl, rfl⟩
  | noMember suffix names value caused => exact ⟨suffix, rfl, rfl⟩

/-- The comparison of validations under one path with those under another. -/
def Comparison.moved (host : Host κ) (path other : Path) : Comparison κ where
  schema schema another := schema = another ∧ schema.Throughout host Body.SelfContained
  place here scope there beside := scope.mode = beside.mode ∧
    ∃ suffix, here = ⟨path.segments ++ suffix⟩ ∧ there = ⟨other.segments ++ suffix⟩
  fault := Fault.Moved path other
  mode placed := placed.1
  child := by
    rintro _ _ scope beside ⟨mode, suffix, rfl, rfl⟩ segment
    refine ⟨mode, suffix ++ [segment], ?_, ?_⟩ <;> rw [Path.child, List.append_assoc]
  within placed object := placed
  located := by
    rintro _ _ scope beside ⟨_, suffix, rfl, rfl⟩ reason
    exact .located suffix reason
  noMember := by
    rintro _ _ scope beside schemas others causes later ⟨_, suffix, rfl, rfl⟩ listed caused value
    rw [Schema.typeNames_eq (fun _ _ same => same.1) listed]
    exact .noMember suffix _ value caused

namespace Schema

/-- A schema in which nothing looks around accepts the same under every path and in all surroundings
of one mode, with the same result, and faults under one path are those under another path, moved. -/
theorem validateAt_relocates (host : Host κ) (depth : Nat) (schema : Schema κ)
    (contained : schema.Throughout host Body.SelfContained) (value : Option Value)
    (path other : Path) (scope beside : Scope) (mode : scope.mode = beside.mode) :
    (schema.validateAt host depth value path scope).result? =
      (schema.validateAt host depth value other beside).result? ∧
    Option.Rel (fun fault later => fault.Moved path other later ∧
        ∃ suffix, fault.path.segments = path.segments ++ suffix ∧
          later.path.segments = other.segments ++ suffix)
      (schema.validateAt host depth value path scope).fault?
      (schema.validateAt host depth value other beside).fault? := by
  have agree : ∀ (path other : Path) (scope beside : Scope), scope.mode = beside.mode →
      (schema.validateAt host depth value path scope).Agrees (Fault.Moved path other)
        (schema.validateAt host depth value other beside) := by
    intro path other scope beside mode
    have placed : (Comparison.moved host path other).place path scope other beside :=
      ⟨mode, [], by rw [List.append_nil], by rw [List.append_nil]⟩
    refine validateAt_agrees_around rfl ?_ ?_ contained depth value placed
    · intro body contained path scope other beside _
      cases default : body.settings.default with
      | computed name => exact absurd default (contained.supplied name)
      | _ => rfl
    · intro body contained condition listed value path scope other beside _
      have alone := contained.alone condition listed
      cases condition with
      | presence | custom => cases alone
      | _ => rfl
  have forth := agree path other scope beside mode
  have back := agree other path beside scope mode.symm
  exact ⟨forth.result?_eq back,
    (forth.mono fun _ _ moved => And.intro moved moved.path).fault?_rel back⟩

end Schema

/-- Tags are self-contained. -/
theorem tags_selfContained : (Schema.built tags).Throughout events Body.SelfContained := by
  refine .built ⟨fun condition listed => ?_, nofun⟩ fun step taken inner handed => ?_
  · rcases List.mem_pair.mp listed with same | same <;> cases same
    rfl
  · rcases List.mem_pair.mp taken with rfl | rfl
    · cases handed
    · obtain rfl := List.mem_singleton.mp handed
      refine .built ⟨fun condition listed => ?_, nofun⟩ fun _ listed => ?_ <;> cases listed

/-- An array with null in it, where tags are given. -/
def tagsGiven : Value := .array [.string "first", .null]

/-- What is no tag is refused in the tags of an event and in tags by themselves, each time at its
index. -/
theorem Schema.validateAt_relocates_tags :
    (Schema.built tags).Throughout events Body.SelfContained ∧
    (Scope.ofRoot eventGiven .strict).mode = (Scope.new .strict).mode ∧
    ((Schema.built tags).validateAt events 2 (some tagsGiven) (Path.root.key "tags")
      (.ofRoot eventGiven .strict)).fault? =
        some (.located ((Path.root.key "tags").index 1) .nullValue) ∧
    ((Schema.built tags).validateAt events 2 (some tagsGiven) .root (.new .strict)).fault? =
      some (.located (Path.root.index 1) .nullValue) ∧
    Fault.Moved (Path.root.key "tags") .root
      (.located ((Path.root.key "tags").index 1) .nullValue)
      (.located (Path.root.index 1) .nullValue) := by
  refine ⟨tags_selfContained, rfl, rfl, rfl, ?_⟩
  have moved : Option.Rel _ (some _) (some _) := (validateAt_relocates events 2 (.built tags)
    tags_selfContained (some tagsGiven) (Path.root.key "tags") .root (.ofRoot eventGiven .strict)
    (.new .strict) rfl).2
  cases moved with
  | some same => exact same.1

end Assay
