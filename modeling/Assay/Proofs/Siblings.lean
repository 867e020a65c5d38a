import Assay.Blueprint.Basic
import Assay.Proofs.Checks
import Assay.Proofs.Visits

/-!
# Which fields a presence rule counts

A presence rule takes the key of its own field from the path and looks the fields of its group up in the
current object. These are handed on separately, but whatever names and unions lie between a shape and
the schema of a field, the current object has under that key what is given for the field: a field with
a value counts itself. This holds on all visits that a validation by a blueprint comes about from
(`Blueprint.visit_countsOwn`). The values of a plain object go one step further on the path and no step
further into the surroundings, so there the rule looks at the object of the shape around, which need not
have the key (`Blueprint.visit_overlooksEntry`).
-/
namespace Assay

variable {κ : Type}

namespace PresenceRule

/-- What has the key that the path ends in, with a value other than null, has it counted. -/
theorem presentCount_pos (keys : List String) {path : Path} {key : String} {object given : Value}
    (last : path.lastKey? = some key) (has : object.field? key = some given)
    (defined : given ≠ .null) : 0 < presentCount (group keys path) (some object) := by
  have present : Value.isPresent ((some object).bind (·.field? key)) = true := by
    rw [Option.bind_some, has, Value.isPresent, Value.isNull_eq_false_iff.mpr defined]
    rfl
  have listed : key ∈ group keys path := (mem_group keys last key).mpr List.mem_cons_self
  exact List.length_pos_of_mem (List.mem_filter.mpr ⟨listed, present⟩)

end PresenceRule

namespace Blueprint

/-- The visit that the validation of a value by a blueprint starts with. -/
def visit (blueprint : Blueprint κ) (depth : Nat) (value : Value) : Visit κ :=
  ⟨depth, blueprint.schema, some value, .root, .ofRoot value blueprint.options.mode⟩

/-- A validation by a blueprint is what comes about from the visits that are reached, and nothing but
these visits makes a difference to it. On each visit a presence rule looks at the object of the
innermost shape around: where that is a plain object, the rule has no objection exactly when the group
in it is as the rule demands, and with an objection the visit ends. If the schema that carries the rule
is that of a field of this shape, names and unions on the way, and a value other than null is given for
the field, then the object has that value under the key that the path ends in; so the key is counted,
and a rule that demands one field of the group at least has no objection. -/
theorem visit_countsOwn (host : Host κ) (depth : Nat) (blueprint : Blueprint κ) (value : Value) :
    (∀ runs : Visit κ → Run (Option Value),
      (∀ approach visit, (blueprint.visit depth value).Reaches host approach visit →
        runs visit = visit.runWith host runs) →
      blueprint.validate host depth value =
        (runs (blueprint.visit depth value) >>= fun result =>
          pure (result.getD value)).mapFault (·.withLabels blueprint.options.labels)) ∧
    ∀ approach visit, (blueprint.visit depth value).Reaches host approach visit →
      ∀ (rule : PresenceRule) (keys : List String) (met : Value),
        visit.Takes host (.check (.presence rule keys)) met →
        let group := PresenceRule.group keys visit.path
        let objection := (Check.presence rule keys).objection? host met visit.path visit.scope
        visit.scope.current = approach.around ∧
        (∀ fields, approach.around = some (.object fields) →
          (objection = none ↔ rule.Demands group fields)) ∧
        (∀ reason, objection = some reason →
          (visit.run host).fault? = some (.located visit.path reason)) ∧
        ∀ given, approach.entrance = .field (some given) → given ≠ .null →
          ∃ key object, visit.path.lastKey? = some key ∧ visit.scope.current = some object ∧
            object.field? key = some given ∧ key ∈ group ∧
            0 < PresenceRule.presentCount group visit.scope.current ∧
            (rule = .any → objection = none) := by
  refine ⟨fun runs each => ?_, fun approach visit reached rule keys met taken => ?_⟩
  · have whole := Visit.run_determined each .start
    rw [whole]
    rfl
  · intro group objection
    have fits := reached.fits
    refine ⟨fits.current, fun fields around => ?_, fun reason => taken.fault,
      fun given entered defined => ?_⟩
    · have demanded : rule.holds (PresenceRule.presentCount group (some (.object fields)))
          group.length = true ↔ rule.Demands group fields :=
        PresenceRule.holds_presentCount (PresenceRule.group_nodup keys visit.path)
      rw [← demanded, ← around, ← fits.current]
      exact Check.reasonUnless_eq_none
    · obtain ⟨key, object, last, around, has⟩ := fits.held _ entered
      have current : visit.scope.current = some object := fits.current.trans around
      have listed := (PresenceRule.mem_group keys last key).mpr List.mem_cons_self
      have counted := PresenceRule.presentCount_pos keys last has defined
      refine ⟨key, object, last, current, has, listed, current ▸ counted, ?_⟩
      rintro rfl
      refine Check.reasonUnless_eq_none.mpr (bne_iff_ne.mpr ?_)
      rw [current]
      exact Nat.ne_of_gt counted

/-- A contact that gives a mail address has it counted. -/
theorem visit_countsOwn_contact :
    let mail : Body Unit := (Body.ofKind .string).refine (.presence .one ["phone"])
    let value := Value.object [("mail", .string "first")]
    let start := (Blueprint.new contactFields .usual).visit 3 value
    let visit : Visit Unit := ⟨2, .built mail, some (.string "first"), Path.root.key "mail",
      (Scope.ofRoot value .strict).withCurrent value⟩
    (∀ approach visit, start.Reaches events approach visit →
      visit.run events = visit.runWith events (Visit.run events)) ∧
      (Blueprint.new contactFields .usual).validate events 3 value =
        (start.run events >>= fun result =>
          pure (result.getD value)).mapFault (·.withLabels Options.usual.labels) ∧
      start.Reaches events ⟨.field (some (.string "first")), some value⟩ visit ∧
      visit.Takes events (.check (.presence .one ["phone"])) (.string "first") ∧
      (Value.string "first" ≠ .null) ∧
      ∃ key object, visit.path.lastKey? = some key ∧ visit.scope.current = some object ∧
        object.field? key = some (.string "first") ∧ key ∈ PresenceRule.group ["phone"] visit.path ∧
        0 < PresenceRule.presentCount (PresenceRule.group ["phone"] visit.path)
          visit.scope.current := by
  intro mail value start visit
  have shaped : (Blueprint.new contactFields .usual).body.Takes events (Schema.membersAt events 2)
      (some value) .root (.ofRoot value .strict) (.fields contactFields) value :=
    ⟨value, rfl, nofun, fun _ => rfl, .here rfl⟩
  have listed : ("mail", Schema.built mail) ∈ contactFields := List.mem_cons_self
  have given : value.fields? = some [("mail", .string "first")] := rfl
  have reached : start.Reaches events ⟨.field (some (.string "first")), some value⟩ visit :=
    .call .start shaped (.field listed given)
  have taken : visit.Takes events (.check (.presence .one ["phone"])) (.string "first") :=
    .body ⟨.string "first", rfl, nofun, fun _ => rfl, .here rfl⟩
  obtain ⟨whole, each⟩ := visit_countsOwn events 3 (Blueprint.new contactFields .usual) value
  have runs : ∀ approach visit, start.Reaches events approach visit →
      visit.run events = visit.runWith events (Visit.run events) := fun _ visit _ => visit.run_eq
  obtain ⟨_, _, _, own⟩ := each _ visit reached .one ["phone"] _ taken
  obtain ⟨key, object, last, current, has, grouped, counted, _⟩ := own (.string "first") rfl nofun
  exact ⟨runs, whole _ runs, reached, taken, nofun, key, object, last, current, has, grouped, counted⟩

/-- A text that stands for itself or for the text of a mark. -/
def markText : Body Unit := (Body.ofKind .string).refine (.presence .any ["mark"])

/-- An object of such texts. -/
def markObject : Body Unit := (Body.ofKind .object).refine (.values (.built markText))

/-- The blueprint with such an object as its only field. -/
def marks : Blueprint Unit := .new [("marks", .built markObject)] .usual

/-- Not every schema that is visited for a value given at a key finds the value in the current object:
the values of a plain object do not, so a text is refused for want of itself. -/
theorem visit_overlooksEntry :
    let value := Value.object [("marks", .object [("first", .string "text")])]
    ∃ approach visit, (marks.visit 4 value).Reaches events approach visit ∧
      approach.entrance = .entry ∧ visit.input = some (.string "text") ∧
      visit.path.lastKey? = some "first" ∧
      visit.Takes events (.check (.presence .any ["mark"])) (.string "text") ∧
      visit.scope.current = some value ∧ value.field? "first" = none ∧
      (marks.validate events 4 value).fault? = some (.located ((Path.root.key "marks").key "first")
        (.presence .any ["first", "mark"])) := by
  intro value
  have shaped : marks.body.Takes events (Schema.membersAt events 3) (some value) .root
      (.ofRoot value .strict) (.fields [("marks", .built markObject)]) value :=
    ⟨value, rfl, nofun, fun _ => rfl, .here rfl⟩
  have valued : markObject.Takes events (Schema.membersAt events 2)
      (some (.object [("first", .string "text")])) (Path.root.key "marks")
      ((Scope.ofRoot value .strict).withCurrent value) (.values (.built markText))
      (.object [("first", .string "text")]) :=
    ⟨.object [("first", .string "text")], rfl, nofun, fun _ => rfl, .here rfl⟩
  have listed : ("marks", Schema.built markObject) ∈ [("marks", Schema.built markObject)] :=
    List.mem_cons_self
  have given : value.fields? = some [("marks", .object [("first", .string "text")])] := rfl
  have field : (marks.visit 4 value).Reaches events
      ⟨.field (some (.object [("first", .string "text")])), some value⟩
      ⟨3, .built markObject, some (.object [("first", .string "text")]), Path.root.key "marks",
        (Scope.ofRoot value .strict).withCurrent value⟩ := .call .start shaped (.field listed given)
  have reached := Visit.Reaches.call field valued (.value List.mem_cons_self)
  exact ⟨_, _, reached, rfl, rfl, rfl, .body ⟨.string "text", rfl, nofun, fun _ => rfl, .here rfl⟩,
    rfl, rfl, rfl⟩

end Blueprint

end Assay
