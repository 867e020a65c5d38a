import Assay.Blueprint.Basic
import Assay.Proofs.Acceptance
import Assay.Proofs.Surroundings

/-!
# Blueprints and their shapes

A blueprint makes surroundings for the outermost value, and its shape is validated without any.
Fields are validated beside the value in both cases (`Blueprint.shape_beside`), so the two can
differ only where something looks at the outermost value (`Body.IgnoresRoot`). Where nothing does,
it makes no difference (`Schema.validateAt_rootless`), and a blueprint accepts what its shape
accepts. Its faults are those of the shape under the labels of the options, which no cause inside
has.
-/
namespace Assay

variable {κ : Type} {host : Host κ}

/-- Neither the callbacks of the body nor its computed default look at the outermost value. -/
structure Body.IgnoresRoot (host : Host κ) (body : Body κ) : Prop where
  /-- Callbacks object to the same whatever the outermost value is. -/
  asked : ∀ name, .check (.custom name) ∈ body.steps → ∀ value scope root,
    host.callback name value { scope with root := root } = host.callback name value scope
  /-- The default is computed to the same whatever the outermost value is. -/
  supplied : ∀ name, body.settings.default = .computed name → ∀ path scope root,
    host.compute name path { scope with root := root } = host.compute name path scope

/-- Neither the fault nor any fault among its causes, at any depth, is labelled. -/
inductive Fault.Unlabelled : Fault → Prop
  /-- A fault without labels, all of whose causes are without labels. -/
  | bare {path : Path} {reason : Reason} {causes : List Fault}
      (each : ∀ cause ∈ causes, Unlabelled cause) : Unlabelled ⟨path, reason, .empty, causes⟩

/-- A fault without labels takes all labels. -/
theorem Fault.Unlabelled.withLabels {fault : Fault} (unlabelled : fault.Unlabelled)
    (labels : Labels) : fault.withLabels labels = { fault with labels := labels } := by
  cases unlabelled with
  | bare each => rfl

/-- The comparison of validations that take place beside the same object, but under any outermost
values. -/
def Comparison.rootless (host : Host κ) : Comparison κ where
  schema schema another := schema = another ∧ schema.Throughout host (Body.IgnoresRoot host)
  place path scope other beside := path = other ∧ ∃ root, beside = { scope with root := root }
  fault fault other := fault = other ∧ fault.Unlabelled
  mode := by
    rintro _ _ _ _ ⟨_, _, rfl⟩
    rfl
  child := by
    rintro _ _ _ _ ⟨rfl, placed⟩ segment
    exact ⟨rfl, placed⟩
  within := by
    rintro _ _ _ _ ⟨same, root, rfl⟩ object
    exact ⟨same, root, rfl⟩
  located := by
    rintro _ _ _ _ ⟨rfl, _⟩ reason
    exact ⟨rfl, .bare (List.forall_mem_nil _)⟩
  noMember := by
    rintro _ _ _ _ schemas others causes later ⟨rfl, _⟩ listed caused value
    have equal : causes = later := List.forall₂_eq_eq_eq ▸ caused.imp fun _ _ same => same.1
    subst equal
    rw [Schema.typeNames_eq (fun _ _ same => same.1) listed]
    exact ⟨rfl, .bare fun cause among => (List.forall₂_same.mp caused cause among).2⟩

namespace Schema

/-- A schema in which nothing looks at the outermost value agrees with itself beside the same
object. -/
theorem validateAt_agrees_rootless {schema : Schema κ}
    (ignores : schema.Throughout host (Body.IgnoresRoot host)) (depth : Nat) (value : Option Value)
    (path : Path) (scope : Scope) (root : Option Value) :
    (schema.validateAt host depth value path scope).Agrees (Comparison.rootless host).fault
      (schema.validateAt host depth value path { scope with root := root }) := by
  refine validateAt_agrees_around rfl ?_ ?_ ignores depth value ⟨rfl, root, rfl⟩
  · rintro body ignores path scope _ _ ⟨rfl, root, rfl⟩
    cases default : body.settings.default with
    | computed name => exact congrArg some (ignores.supplied name default path scope root).symm
    | _ => rfl
  · rintro body ignores condition listed value path scope _ _ ⟨rfl, root, rfl⟩
    cases condition with
    | custom name =>
      exact congrArg (Option.map Reason.stated) (ignores.asked name listed value scope root).symm
    | _ => rfl

/-- Where nothing looks at the outermost value, it makes no difference, and no fault is labelled. -/
theorem validateAt_rootless {schema : Schema κ}
    (ignores : schema.Throughout host (Body.IgnoresRoot host)) (depth : Nat) (value : Option Value)
    (path : Path) (scope : Scope) (root : Option Value) :
    (schema.validateAt host depth value path { scope with root := root }).result? =
        (schema.validateAt host depth value path scope).result? ∧
      (schema.validateAt host depth value path { scope with root := root }).fault? =
        (schema.validateAt host depth value path scope).fault? ∧
      ∀ fault, (schema.validateAt host depth value path scope).fault? = some fault →
        fault.Unlabelled := by
  have forth := validateAt_agrees_rootless ignores depth value path scope root
  have back := validateAt_agrees_rootless ignores depth value path { scope with root := root }
    scope.root
  have kept : ∀ fault, (schema.validateAt host depth value path scope).fault? = some fault →
      (schema.validateAt host depth value path { scope with root := root }).fault? = some fault ∧
        fault.Unlabelled := by
    intro fault rejected
    obtain ⟨other, found, rfl, unlabelled⟩ := forth.fault? rejected
    exact ⟨found, unlabelled⟩
  refine ⟨back.result?_eq forth, Option.ext fun fault => ⟨fun rejected => ?_, fun rejected =>
    (kept fault rejected).1⟩, fun fault rejected => (kept fault rejected).2⟩
  obtain ⟨other, found, rfl, _⟩ := back.fault? rejected
  exact found

end Schema

namespace Body

variable {members : Members κ} {body : Body κ} {value : Value} {path : Path} {scope : Scope}

/-- A shape validates its fields beside the value, so what its own surroundings are beside does not
matter. -/
theorem validate_beside {declared : List (String × Schema κ)}
    (fields : body.steps = [.fields declared]) :
    body.validate host members (some value) path scope =
      body.validate host members (some value) path (scope.withCurrent value) := by
  obtain ⟨settings, steps⟩ := body
  obtain rfl : steps = [.fields declared] := fields
  -- The only step sets the current object to the value itself before anything looks at it.
  rfl

end Body

namespace Schema

/-- What is accepted of defined input is a result whatever would take the place of none. -/
theorem validateAt_getD {depth : Nat} {schema : Schema κ} {value : Value} {path : Path}
    {scope : Scope} (instead other : Value) :
    (schema.validateAt host depth (some value) path scope).result?.map (·.getD instead) =
      (schema.validateAt host depth (some value) path scope).result?.map (·.getD other) := by
  refine Option.map_congr fun outcome accepted => ?_
  obtain ⟨body, inner, _, _, validated⟩ := validateAt_accepted accepted
  obtain ⟨result, rfl⟩ := Body.validate_defined validated
  rfl

end Schema

namespace Blueprint

/-- The shape of declared fields, exact unless undeclared fields are kept. -/
def shape (declared : List (String × Schema κ)) (unknown : Bool) : Schema κ :=
  ((Body.shape declared).refine (.exact !unknown)).schema

/-- A shape ignores the outermost value where its fields do. -/
theorem shape_ignoresRoot {declared : List (String × Schema κ)}
    (ignores : ∀ field ∈ declared, field.2.Throughout host (Body.IgnoresRoot host))
    (unknown : Bool) : (shape declared unknown).Throughout host (Body.IgnoresRoot host) := by
  refine .built ⟨fun name listed => ?_, nofun⟩ fun step taken inner handed => ?_
  · cases List.mem_singleton.mp listed
  · obtain rfl := List.mem_singleton.mp taken
    obtain ⟨field, listed, rfl⟩ := List.mem_map.mp handed
    exact ignores field listed

/-- Validated without surroundings, a shape is validated beside the value. -/
theorem shape_beside (declared : List (String × Schema κ)) (unknown : Bool) (depth : Nat)
    (value : Value) (path : Path) (scope : Scope) :
    (shape declared unknown).validateAt host depth (some value) path scope =
      (shape declared unknown).validateAt host depth (some value) path
        (scope.withCurrent value) := by
  cases depth with
  | zero => rfl
  | succ depth => exact Body.validate_beside rfl

/-- Where no field looks at the outermost value, a blueprint accepts what its shape accepts, with
the same result, and refuses the rest with the fault of the shape, which has no labels and no
labelled causes, under the labels of the options. -/
theorem validate_shape (host : Host κ) (depth : Nat) (declared : List (String × Schema κ))
    (options : Options) (value : Value)
    (ignores : ∀ field ∈ declared, field.2.Throughout host (Body.IgnoresRoot host)) :
    ((Blueprint.new declared options).validate host depth value).result? =
      ((shape declared options.unknown).validateWith host depth value options.mode).result? ∧
    ((Blueprint.new declared options).validate host depth value).fault? =
      (((shape declared options.unknown).validateWith host depth value options.mode).fault?.map
        fun fault => { fault with labels := ⟨options.name, options.file⟩ }) ∧
    ∀ fault, ((shape declared options.unknown).validateWith host depth value
      options.mode).fault? = some fault → fault.Unlabelled := by
  have ignored := Schema.validateAt_rootless (shape_ignoresRoot ignores options.unknown) depth
    (some value) .root ((Scope.new options.mode).withCurrent value) (some value)
  rw [← shape_beside] at ignored
  obtain ⟨results, faults, unlabelled⟩ := ignored
  refine ⟨?_, ?_, fun fault rejected => ?_⟩
  · rw [validate, Schema.validateWith, Run.result?_mapFault, Run.result?_bind_pure,
      Run.result?_bind_pure, ← results]
    exact Schema.validateAt_getD value .null
  · rw [validate, Schema.validateWith, Run.fault?_mapFault, Run.fault?_bind_pure,
      Run.fault?_bind_pure]
    refine (congrArg _ faults).trans (Option.map_congr fun fault rejected => ?_)
    exact (unlabelled fault rejected).withLabels _
  · rw [Schema.validateWith, Run.fault?_bind_pure] at rejected
    exact unlabelled fault rejected

end Blueprint

/-- A host by which an alias may only be given beside a name. -/
def people : Host Unit where
  callback _ _ scope :=
    if (scope.current.bind (·.field? "name")).isSome then none else some "There is no name."
  compute _ _ _ := .null
  now := ⟨0, 0⟩
  definitions _ := .error .noMembers

/-- A person has a name and may have an alias. -/
def person : List (String × Schema Unit) :=
  [("alias", .built ((Body.ofKind .string).refine (.custom ()))),
    ("name", .built (.ofKind .string))]

/-- Persons may have other fields, and faults say where they come from. -/
def personOptions : Options := ⟨true, some "person", some "people.json", .strict⟩

/-- Aliases are held to what is beside them only. -/
theorem person_ignoresRoot :
    ∀ field ∈ person, field.2.Throughout people (Body.IgnoresRoot people) := by
  intro field listed
  rcases List.mem_pair.mp listed with rfl | rfl
  · refine .built ⟨fun name asked value scope root => rfl, nofun⟩ fun step taken inner handed => ?_
    obtain rfl := List.mem_singleton.mp taken
    cases handed
  · exact .built ⟨fun name asked value scope root => rfl, nofun⟩ fun step taken => by cases taken

/-- An alias without a name is refused by the blueprint as by the shape, but under labels. -/
theorem Blueprint.validate_shape_person :
    (∀ field ∈ person, field.2.Throughout people (Body.IgnoresRoot people)) ∧
    ((shape person true).validateWith people 3 (.object [("alias", .string "a")]) .strict).fault? =
      some (.located (Path.root.key "alias") (.stated "There is no name.")) ∧
    ((Blueprint.new person personOptions).validate people 3
      (.object [("alias", .string "a")])).fault? =
        some { Fault.located (Path.root.key "alias") (.stated "There is no name.") with
          labels := ⟨some "person", some "people.json"⟩ } :=
  ⟨person_ignoresRoot, rfl, (validate_shape people 3 person personOptions
    (.object [("alias", .string "a")]) person_ignoresRoot).2.1⟩

end Assay
