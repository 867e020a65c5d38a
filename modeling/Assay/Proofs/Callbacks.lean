import Assay.Blueprint.Basic
import Assay.Proofs.Surroundings

/-!
# What callbacks see

A blueprint is validated in surroundings whose outermost value is the value given and whose mode is
that of its options. Steps hand both on unchanged, so every callback and every computed default is
asked in such surroundings, however deep it stands. Stated of two hosts that answer alike there and
as they please elsewhere (`Host.AlikeInside`): a blueprint comes to the same verdict by either
(`Blueprint.validate_inside`).
-/
namespace Assay

variable {κ : Type}

/-- The hosts know the same names and the same time, and their callbacks and computed defaults answer
alike in all surroundings of the outermost value and the mode. -/
structure Host.AlikeInside (host beyond : Host κ) (root : Value) (mode : Mode) : Prop where
  /-- Callbacks object to the same. -/
  asked : ∀ name value scope, scope.root = some root → scope.mode = mode →
    host.callback name value scope = beyond.callback name value scope
  /-- Defaults are computed to the same. -/
  supplied : ∀ name path scope, scope.root = some root → scope.mode = mode →
    host.compute name path scope = beyond.compute name path scope
  /-- The time is the same. -/
  timed : host.now = beyond.now
  /-- Names stand for the same schemas. -/
  named : host.definitions = beyond.definitions

/-- The comparison of validations in the same surroundings, of one outermost value and one mode. -/
def Comparison.inside (host : Host κ) (root : Value) (mode : Mode) : Comparison κ where
  schema schema another := schema = another ∧ schema.Throughout host fun _ => True
  place path scope other beside :=
    path = other ∧ scope = beside ∧ scope.root = some root ∧ scope.mode = mode
  fault := Eq
  mode := by
    rintro _ _ _ _ ⟨_, rfl, _⟩
    rfl
  child := by
    rintro _ _ _ _ ⟨rfl, placed⟩ segment
    exact ⟨rfl, placed⟩
  within := by
    -- Only the object that a field is looked at in is replaced.
    rintro _ _ _ _ ⟨rfl, rfl, rooted, moded⟩ object
    exact ⟨rfl, rfl, rooted, moded⟩
  located := by
    rintro _ _ _ _ ⟨rfl, _⟩ reason
    rfl
  noMember := by
    rintro _ _ _ _ schemas others causes later ⟨rfl, _⟩ listed caused value
    rw [List.forall₂_eq_eq_eq] at caused
    rw [Schema.typeNames_eq (fun _ _ same => same.1) listed, caused]

namespace Host.AlikeInside

variable {host beyond : Host κ} {root : Value} {mode : Mode}

/-- Hosts are alike both ways round. -/
theorem symm (alike : host.AlikeInside beyond root mode) : beyond.AlikeInside host root mode where
  asked name value scope rooted moded := (alike.asked name value scope rooted moded).symm
  supplied name path scope rooted moded := (alike.supplied name path scope rooted moded).symm
  timed := alike.timed.symm
  named := alike.named.symm

/-- In the surroundings in which they are alike, two hosts resolve a default to the same. -/
theorem resolve_eq (alike : host.AlikeInside beyond root mode) (default : Default κ) (path : Path)
    {scope : Scope} (rooted : scope.root = some root) (moded : scope.mode = mode) :
    default.resolve host path scope = default.resolve beyond path scope := by
  cases default with
  | computed name => exact congrArg some (alike.supplied name path scope rooted moded)
  | now => exact congrArg (fun time => some (Value.date time)) alike.timed
  | _ => rfl

/-- In the surroundings in which they are alike, two hosts have the same objection. -/
theorem objection?_eq (alike : host.AlikeInside beyond root mode) (condition : Check κ)
    (value : Value) (path : Path) {scope : Scope} (rooted : scope.root = some root)
    (moded : scope.mode = mode) :
    condition.objection? host value path scope = condition.objection? beyond value path scope := by
  cases condition with
  | custom name =>
    exact congrArg (Option.map Reason.stated) (alike.asked name value scope rooted moded)
  | _ => rfl

/-- A schema agrees with itself by hosts that are alike in its surroundings. -/
theorem validateAt_agrees (alike : host.AlikeInside beyond root mode) (depth : Nat)
    (schema : Schema κ) (value : Option Value) (path : Path) {scope : Scope}
    (rooted : scope.root = some root) (moded : scope.mode = mode) :
    (schema.validateAt host depth value path scope).Agrees Eq
      (schema.validateAt beyond depth value path scope) := by
  have placed : (Comparison.inside host root mode).place path scope path scope :=
    ⟨rfl, rfl, rooted, moded⟩
  have all : schema.Throughout host fun _ => True := fun _ _ => trivial
  apply Schema.validateAt_agrees_between alike.named.symm rfl ?_ ?_ all depth value placed
  · rintro body _ path scope _ _ ⟨rfl, rfl, rooted, moded⟩
    exact alike.resolve_eq body.settings.default path rooted moded
  · rintro body _ condition _ value path scope _ _ ⟨rfl, rfl, rooted, moded⟩
    exact alike.objection?_eq condition value path rooted moded

/-- A schema comes to the same verdict by hosts that are alike in its surroundings. -/
theorem validateAt_verdict (alike : host.AlikeInside beyond root mode) (depth : Nat)
    (schema : Schema κ) (value : Option Value) (path : Path) {scope : Scope}
    (rooted : scope.root = some root) (moded : scope.mode = mode) :
    (schema.validateAt host depth value path scope).verdict =
      (schema.validateAt beyond depth value path scope).verdict := by
  have forth := alike.validateAt_agrees depth schema value path rooted moded
  have back := alike.symm.validateAt_agrees depth schema value path rooted moded
  exact forth.verdict_eq_of_both back fun _ _ _ same => same

end Host.AlikeInside

/-- Every callback and every computed default of a blueprint is asked with the value given as the
outermost one and in the mode of the options: hosts that are alike in such surroundings, whatever
they answer in others, come to the same verdict. -/
theorem Blueprint.validate_inside (host beyond : Host κ) (depth : Nat)
    (declared : List (String × Schema κ)) (options : Options) (value : Value)
    (alike : host.AlikeInside beyond value options.mode) :
    ((Blueprint.new declared options).validate host depth value).verdict =
      ((Blueprint.new declared options).validate beyond depth value).verdict := by
  have rooted : (Scope.ofRoot value options.mode).root = some value := rfl
  have shaped := alike.validateAt_verdict depth (Blueprint.new declared options).schema (some value)
    .root rooted rfl
  exact Run.verdict_mapFault_bind_pure _ _ shaped

/-! ## Parts and their owners, an example -/

/-- A host by which nothing is accepted unless the outermost value names an owner. -/
def owners : Host Unit where
  callback _ _ scope :=
    if (scope.root.bind (·.field? "owner")).isSome then none else some "There is no owner."
  compute _ path _ := .string path.toText
  now := ⟨0, 0⟩
  definitions name :=
    if name = "part" then
      .ok (.built (.shape [("label", .built ((Body.ofKind .string).refine (.custom ()))),
        ("note", .built ((Body.ofKind .string).refine (.computedDefault ())))]))
    else .error .noMembers

/-- A host that says the same inside a strict validation, and something else elsewhere. -/
def strangers : Host Unit :=
  { owners with
    callback := fun name value scope =>
      if scope.root.isSome && scope.isStrict then owners.callback name value scope
      else some "There is nobody."
    compute := fun name path scope =>
      if scope.root.isSome && scope.isStrict then owners.compute name path scope else .null }

/-- Something made of parts. -/
def assembly : List (String × Schema Unit) :=
  [("parts", .built ((Body.ofKind .array).refine (.elements (.deferred "part"))))]

/-- The two hosts differ only where there is no outermost value or the mode is not the strict one. -/
theorem owners_alikeInside (root : Value) : owners.AlikeInside strangers root .strict where
  asked name value scope rooted moded := by
    have inside : (scope.root.isSome && scope.isStrict) = true := by
      rw [rooted, Scope.isStrict_of_mode moded]
      rfl
    exact (if_pos inside).symm
  supplied name path scope rooted moded := by
    have inside : (scope.root.isSome && scope.isStrict) = true := by
      rw [rooted, Scope.isStrict_of_mode moded]
      rfl
    exact (if_pos inside).symm
  timed := rfl
  named := rfl

/-- Parts without an owner are refused by both hosts for the same reason, though the hosts differ
elsewhere. -/
theorem Blueprint.validate_inside_assembly :
    let unowned : Value := .object [("parts", .array [.object [("label", .string "a")]])]
    owners.AlikeInside strangers unowned Options.usual.mode ∧
      owners.callback () .null (.ofRoot unowned .lenient) ≠
        strangers.callback () .null (.ofRoot unowned .lenient) ∧
      ((Blueprint.new assembly .usual).validate owners 5 unowned).verdict =
        .rejected (.located (((Path.root.key "parts").index 0).key "label")
          (.stated "There is no owner.")) ∧
      ((Blueprint.new assembly .usual).validate strangers 5 unowned).verdict =
        .rejected (.located (((Path.root.key "parts").index 0).key "label")
          (.stated "There is no owner.")) :=
  ⟨owners_alikeInside _, by decide, rfl,
    (validate_inside owners strangers 5 assembly .usual _ (owners_alikeInside _)).symm.trans rfl⟩

end Assay
