import Assay.Proofs.Acceptance

/-!
# Rules across the fields of accepted objects

A presence rule is checked by counting, and the count it accepts says which fields of the group the
object has (`PresenceRule.holds_presentCount`). The rule is a step of one field, and null ends the
validation of a field before its steps, so a rule binds an accepted object when what stands for its
field, the value given or else the default, is a value other than null
(`Schema.validateAt_demands`). A field that is null, given so or by default, leaves the group
unchecked (`Schema.validateAt_null_escapes`).
-/
namespace Assay

/-- The fields have the key, with a value that is not null. -/
def Present (fields : List (String × Value)) (key : String) : Prop :=
  ∃ value, fields.lookup key = some value ∧ value ≠ .null

/-- A list without repetition keeps exactly one item when one is kept and every other that is kept
is the same. -/
theorem length_filter_eq_one {α : Type} {kept : α → Bool} {items : List α}
    (distinct : items.Nodup) : (items.filter kept).length = 1 ↔
      ∃ item ∈ items, kept item = true ∧ ∀ other ∈ items, kept other = true → other = item := by
  rw [List.length_eq_one_iff]
  constructor
  · rintro ⟨item, only⟩
    have among : ∀ other, other ∈ items ∧ kept other = true ↔ other = item := by
      intro other
      rw [← List.mem_filter, only, List.mem_singleton]
    obtain ⟨member, holds⟩ := (among item).mpr rfl
    exact ⟨item, member, holds, fun other inside also => (among other).mp ⟨inside, also⟩⟩
  · rintro ⟨item, member, holds, unique⟩
    have single : (items.filter kept).Perm [item] := by
      rw [List.perm_ext_iff_of_nodup (distinct.filter _) (List.pairwise_singleton _ item)]
      intro other
      rw [List.mem_filter, List.mem_singleton]
      constructor
      · rintro ⟨inside, also⟩
        exact unique other inside also
      · rintro rfl
        exact ⟨member, holds⟩
    exact ⟨item, List.perm_singleton.mp single⟩

namespace PresenceRule

/-- What a rule demands of the fields of an object: of the keys all or none, at least one, or
exactly one must be present. -/
def Demands (rule : PresenceRule) (keys : List String) (fields : List (String × Value)) : Prop :=
  match rule with
  | all => (∀ key ∈ keys, ¬ Present fields key) ∨ ∀ key ∈ keys, Present fields key
  | any => ∃ key ∈ keys, Present fields key
  | one => ∃ key ∈ keys, Present fields key ∧ ∀ other ∈ keys, Present fields other → other = key

/-- What a rule demands depends on which keys are listed, not on how. -/
theorem demands_congr {rule : PresenceRule} {keys others : List String}
    (alike : ∀ key, key ∈ keys ↔ key ∈ others) (fields : List (String × Value)) :
    rule.Demands keys fields ↔ rule.Demands others fields := by
  cases rule <;> simp only [Demands, alike]

/-- Looking a field up in a plain object tells whether it is present. -/
theorem isPresent_iff (fields : List (String × Value)) (key : String) :
    Value.isPresent ((some (Value.object fields)).bind (·.field? key)) = true ↔
      Present fields key := by
  rw [Option.bind_some, Value.field?, Value.fields?, Option.bind_some, Present]
  cases fields.lookup key with
  | none => simp [Value.isPresent]
  | some value => cases value <;> simp [Value.isPresent, Value.isNull]

/-- A rule accepts the count of present fields exactly when the object has the fields that it
demands, for a group without repetition. -/
theorem holds_presentCount {rule : PresenceRule} {group : List String}
    {fields : List (String × Value)} (distinct : group.Nodup) :
    rule.holds (presentCount group (some (.object fields))) group.length = true ↔
      rule.Demands group fields := by
  cases rule with
  | all =>
    rw [holds, Bool.or_eq_true, beq_iff_eq, beq_iff_eq, presentCount, List.length_eq_zero_iff,
      List.filter_eq_nil_iff, List.length_filter_eq_length_iff]
    simp only [isPresent_iff, Demands]
  | any =>
    rw [holds, bne_iff_ne, presentCount, ne_eq, List.length_eq_zero_iff, List.filter_eq_nil_iff]
    simp only [isPresent_iff, Demands, not_forall, not_not, exists_prop]
  | one =>
    rw [holds, beq_iff_eq, presentCount, length_filter_eq_one distinct]
    simp only [isPresent_iff, Demands]

/-- The group has the listed keys and the key of the field that carries the rule. -/
theorem mem_group (keys : List String) {path : Path} {name : String}
    (last : path.lastKey? = some name) (key : String) :
    key ∈ group keys path ↔ key ∈ name :: keys := by
  rw [group, Entries.mem_keys_ofList, last, List.map_map]
  simp [or_comm]

/-- No key is in the group twice. -/
theorem group_nodup (keys : List String) (path : Path) : (group keys path).Nodup :=
  Entries.keys_nodup (Entries.sorted_ofList _)

end PresenceRule

/-- The last step into a field is its key. -/
@[simp] theorem Path.lastKey?_key (path : Path) (name : String) :
    (path.key name).lastKey? = some name := by
  simp [lastKey?, key, child]

variable {κ : Type} {host : Host κ}

namespace Body

variable {members : Members κ} {settings : Settings κ} {rule : PresenceRule} {keys : List String}
  {path : Path} {scope : Scope}

/-- Steps accepted strictly hold the current object to each presence rule among them. -/
theorem takeSteps_presence {steps : List (Step κ)} {value final : Value}
    (strict : scope.isStrict = true) (carried : .check (.presence rule keys) ∈ steps)
    (accepted : (takeSteps host members settings path scope steps value).result? = some final) :
    rule.holds (PresenceRule.presentCount (PresenceRule.group keys path) scope.current)
      (PresenceRule.group keys path).length = true := by
  refine takeSteps_establishes (fun _ => rule.holds (PresenceRule.presentCount
    (PresenceRule.group keys path) scope.current) (PresenceRule.group keys path).length = true)
    carried (.inl strict) (fun _ skipped => ?_) (fun before replaced ran => ?_)
    (fun _ _ _ _ held _ => held) accepted
  · cases Step.isAboutContent_of_isSkipped skipped
  obtain ⟨allowed, _⟩ := Step.run_check_accepted ran
  by_contra refused
  rw [Check.objection?, Check.reasonUnless, if_neg refused] at allowed
  cases allowed

/-- A field accepted strictly, with a value other than null given for it or by default, has the
object that it is a field of held to each presence rule that it carries. -/
theorem validate_demands {field : Body κ} {name : String} {fields : List (String × Value)}
    {value outcome : Option Value} {given : Value} (strict : scope.isStrict = true)
    (carried : .check (.presence rule keys) ∈ field.steps)
    (inside : scope.current = some (.object fields))
    (standing : value.or (field.settings.default.resolve host (path.key name) scope) = some given)
    (defined : given ≠ .null)
    (accepted : (field.validate host members value (path.key name) scope).result? = some outcome) :
    rule.Demands (name :: keys) fields := by
  have processed : ∃ final, (takeSteps host members field.settings (path.key name) scope field.steps
      given).result? = some final := by
    rcases validate_accepted accepted with
      ⟨received, _⟩ | ⟨received, _⟩ | ⟨_, _, received, _, ran, _⟩
    · have same := standing.symm.trans (receive_accepted received).1.symm
      cases same
    · have same := standing.symm.trans (receive_accepted received).1.symm
      exact absurd (Option.some.inj same) defined
    · have same := standing.symm.trans (receive_accepted received).1.symm
      obtain rfl := Option.some.inj same
      obtain ⟨_, final, taken, _⟩ := process_accepted ran
      exact ⟨final, taken⟩
  obtain ⟨final, taken⟩ := processed
  have held := takeSteps_presence strict carried taken
  rw [inside, PresenceRule.holds_presentCount (PresenceRule.group_nodup keys _)] at held
  have listed := PresenceRule.mem_group keys (Path.lastKey?_key path name)
  exact (PresenceRule.demands_congr listed fields).mp held

/-- A plain object accepted strictly by a shape had each declared field accepted beside it. -/
theorem validate_field {declared : List (String × Schema κ)} {criteria : List (Criterion κ)}
    {body : Body κ} {fields : List (String × Value)} {name : String} {schema : Schema κ}
    {outcome : Option Value} (shaped : (Body.shape declared).applyAll criteria = .ok body)
    (listed : (name, schema) ∈ declared)
    (accepted : (body.validate host members (some (.object fields)) path scope).result? =
      some outcome) :
    ∃ result, (members.validate schema (fields.lookup name) (path.key name)
      (scope.withCurrent (.object fields))).result? = some result := by
  rcases validate_accepted accepted with ⟨received, _⟩ | ⟨received, _⟩ | ⟨_, _, received, _, ran, _⟩
  · cases (receive_accepted received).1
  · cases (receive_accepted received).1
  · obtain rfl := Option.some.inj (receive_accepted received).1
    obtain ⟨_, final, taken, _⟩ := process_accepted ran
    obtain ⟨later, steps⟩ := applyAll_steps shaped
    rw [← steps] at taken
    rcases takeSteps_cons_accepted taken with ⟨omitted, _⟩ | ⟨replaced, first, _⟩
    · rcases omitted with ⟨_, role⟩ | skipped
      · cases role
      · cases skipped
    · rcases Step.run_fields_accepted first with ⟨input, built, same, _, validated, _⟩ | ⟨bare, _⟩
      · obtain rfl := Option.some.inj same
        obtain ⟨outcomes, each, _⟩ := Members.fields_accepted validated
        obtain ⟨⟨_, result⟩, _, _, accepted⟩ := Entries.exists_left_of_forall₂ each.flip listed
        exact ⟨result, accepted⟩
      · cases bare

end Body

/-- A plain object that a shape accepts strictly has the fields that each presence rule of a field
demands, as long as a value other than null is given for the field that carries it or stands for it
by default. -/
theorem Schema.validateAt_demands (host : Host κ) (depth : Nat) (shape : Schema κ) (body : Body κ)
    (declared : List (String × Schema κ)) (criteria : List (Criterion κ))
    (shaped : (Body.shape declared).applyAll criteria = .ok body)
    (resolved : shape.ResolvesTo host body) (name : String) (schema : Schema κ) (field : Body κ)
    (listed : (name, schema) ∈ declared) (stands : schema.ResolvesTo host field)
    (rule : PresenceRule) (keys : List String)
    (carried : .check (.presence rule keys) ∈ field.steps) (fields : List (String × Value))
    (path : Path) (scope : Scope) (strict : scope.mode = .strict) (outcome : Option Value)
    (accepted : (shape.validateAt host depth (some (.object fields)) path scope).result? =
      some outcome) (given : Value)
    (standing : (fields.lookup name).or (field.settings.default.resolve host (path.key name)
      (scope.withCurrent (.object fields))) = some given) (defined : given ≠ .null) :
    rule.Demands (name :: keys) fields := by
  obtain ⟨found, inner, _, other, validated⟩ := validateAt_accepted accepted
  obtain rfl := other.unique resolved
  obtain ⟨result, ended⟩ := Body.validate_field shaped listed validated
  obtain ⟨found, deeper, _, other, validated⟩ := validateAt_accepted ended
  obtain rfl := other.unique stands
  have strictly : (scope.withCurrent (.object fields)).isStrict = true :=
    Scope.isStrict_of_mode strict
  exact Body.validate_demands strictly carried rfl standing defined validated

/-- The fields of a contact: a mail address or else a number, one of them only. -/
def contactFields : List (String × Schema Unit) :=
  [("mail", .built ((Body.ofKind .string).refine (.presence .one ["phone"]))),
    ("phone", .built (.ofKind .string))]

/-- A contact that gives a number, and no mail address, has exactly one of them. -/
theorem Schema.validateAt_demands_contact :
    let mail : Body Unit := (Body.ofKind .string).refine (.presence .one ["phone"])
    let fields := [("phone", Value.string "5550100")]
    (Body.shape contactFields).applyAll [.exact true] =
        .ok ((Body.shape contactFields).refine (.exact true)) ∧
      ("mail", .built mail) ∈ contactFields ∧ .check (.presence .one ["phone"]) ∈ mail.steps ∧
      (Scope.new .strict).mode = .strict ∧
      ((Schema.built ((Body.shape contactFields).refine (.exact true))).validateAt events 3
        (some (.object fields)) .root (.new .strict)).result? =
          some (some (.object [("mail", .string ""), ("phone", .string "5550100")])) ∧
      (fields.lookup "mail").or (mail.settings.default.resolve events (Path.root.key "mail")
        ((Scope.new .strict).withCurrent (.object fields))) = some (.string "") ∧
      PresenceRule.one.Demands ["mail", "phone"] fields :=
  ⟨rfl, List.mem_cons_self, List.mem_cons_self, rfl, rfl, rfl,
    validateAt_demands events 3 _ _ contactFields [.exact true] rfl (.built _) "mail" _ _
      List.mem_cons_self (.built _) .one ["phone"] List.mem_cons_self _ .root (.new .strict) rfl _
      rfl (.string "") rfl nofun⟩

/-- A shape with a handler, which is null unless it is given and carries a presence rule. -/
def handled (rule : PresenceRule) : Schema Unit :=
  .built (.shape [("handler", .built ((Body.ofKind .function).refine (.presence rule ["name"]))),
    ("name", .built (.ofKind .string))])

/-- No presence rule binds every accepted object: where the field that carries it is null, by
default or because null is given, objects are accepted that lack what the rule demands. -/
theorem Schema.validateAt_null_escapes :
    (((handled .any).validateAt events 3 (some (.object [])) .root (.new .strict)).result? =
        some (some (.object [("handler", .null), ("name", .string "")])) ∧
      ¬ PresenceRule.any.Demands ["handler", "name"] []) ∧
    (((handled .one).validateAt events 3 (some (.object [("handler", .null)])) .root
        (.new .strict)).result? =
          some (some (.object [("handler", .null), ("name", .string "")])) ∧
      ¬ PresenceRule.one.Demands ["handler", "name"] [("handler", .null)]) ∧
    ((handled .all).validateAt events 3 (some (.object [("name", .string "first")])) .root
        (.new .strict)).result? =
          some (some (.object [("handler", .null), ("name", .string "first")])) ∧
      ¬ PresenceRule.all.Demands ["handler", "name"] [("name", .string "first")] := by
  refine ⟨⟨rfl, ?_⟩, ⟨rfl, ?_⟩, rfl, ?_⟩ <;>
    simp [PresenceRule.Demands, Present, Entries.lookup_cons]

end Assay
