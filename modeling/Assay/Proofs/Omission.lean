import Mathlib.Data.List.Nodup
import Assay.Proofs.Acceptance
import Assay.Proofs.Surroundings

/-!
# What is left out

Undefined input goes on as the default would if it were given, where it is neither required nor
forbidden (`Body.Supplies`). A field that is given is also seen by the fields beside it, but these do
not look where all bodies are self-contained (`Schema.verdict_beside`), and among the undeclared
fields no declared one counts (`Step.undeclared_insert`). So to leave a field out is to write its
default, and likewise for the position after the last item of an array (`Schema.validateAt_omitted`).
-/
namespace Assay

variable {κ : Type} {host : Host κ} {members : Members κ} {settings : Settings κ} {path : Path}
  {scope : Scope}

/-! ## Defaults that are written -/

/-- The body has a fixed default, and allows both that input is undefined and that it is defined. -/
structure Body.Supplies (body : Body κ) (default : Value) : Prop where
  /-- Undefined input is allowed. -/
  optional : body.settings.required = false
  /-- Defined input is allowed. -/
  usable : body.settings.never = false
  /-- The default is fixed. -/
  fixed : body.settings.default = .fixed default

/-- The body that the schema stands for has a fixed default, and allows both that input is undefined
and that it is defined. -/
def Schema.Supplies (host : Host κ) (schema : Schema κ) (default : Value) : Prop :=
  ∃ body, schema.ResolvesTo host body ∧ body.Supplies default

namespace Body

/-- Undefined input is received as its default is. -/
theorem Supplies.receive {body : Body κ} {default : Value} (supplies : body.Supplies default) :
    (receive host body.settings none path scope).verdict =
      (receive host body.settings (some default) path scope).verdict := by
  simp only [Body.receive, supplies.optional, supplies.usable, supplies.fixed, Default.resolve,
    Bool.false_and, Bool.false_eq_true, if_false]
  cases body.settings.deprecated <;> rfl

/-- Undefined input is validated to the same verdict as its default. -/
theorem Supplies.validate {body : Body κ} {default : Value} (supplies : body.Supplies default) :
    (body.validate host members none path scope).verdict =
      (body.validate host members (some default) path scope).verdict :=
  Run.verdict_bind supplies.receive fun _ _ => rfl

end Body

/-- Undefined input is validated to the same verdict as its default, deferred schemas looked up. -/
theorem Schema.Supplies.validateAt {schema : Schema κ} {default : Value}
    (supplies : schema.Supplies host default) (depth : Nat) :
    (schema.validateAt host depth none path scope).verdict =
      (schema.validateAt host depth (some default) path scope).verdict := by
  obtain ⟨body, resolved, supplied⟩ := supplies
  induction resolved generalizing depth with
  | built body =>
    cases depth with
    | zero => rfl
    | succ depth => exact supplied.validate
  | deferred found _ ih =>
    cases depth with
    | zero => rfl
    | succ depth =>
      apply Run.verdict_bind rfl
      intro target reached
      obtain rfl := Except.ok.inj (found.symm.trans (Run.result?_ofMisuse_eq_some.mp reached))
      exact ih depth supplied

/-! ## Fields beside -/

/-- The comparison of validations at one place, in surroundings of one mode. -/
def Comparison.beside (host : Host κ) : Comparison κ where
  schema schema another := schema = another ∧ schema.Throughout host Body.SelfContained
  place path scope other beside := path = other ∧ scope.mode = beside.mode
  fault := Eq
  mode placed := placed.2
  child := by
    rintro _ _ _ _ ⟨rfl, mode⟩ segment
    exact ⟨rfl, mode⟩
  within placed object := placed
  located := by
    rintro _ _ _ _ ⟨rfl, _⟩ reason
    rfl
  noMember := by
    rintro _ _ _ _ schemas others causes later ⟨rfl, _⟩ listed caused value
    rw [List.forall₂_eq_eq_eq] at caused
    rw [Schema.typeNames_eq (fun _ _ same => same.1) listed, caused]

/-- A schema in which nothing looks around comes to the same verdict in all surroundings of one
mode. -/
theorem Schema.verdict_beside {schema : Schema κ}
    (contained : schema.Throughout host Body.SelfContained) (depth : Nat) (value : Option Value)
    {beside : Scope} (mode : scope.mode = beside.mode) :
    (schema.validateAt host depth value path scope).verdict =
      (schema.validateAt host depth value path beside).verdict := by
  have agree : ∀ scope beside : Scope, scope.mode = beside.mode →
      (schema.validateAt host depth value path scope).Agrees Eq
        (schema.validateAt host depth value path beside) := by
    intro scope beside mode
    have placed : (Comparison.beside host).place path scope path beside := ⟨rfl, mode⟩
    apply validateAt_agrees_around rfl ?_ ?_ contained depth value placed
    · intro body contained path scope other beside _
      exact contained.resolve_eq path other scope beside
    · intro body contained condition listed value path scope other beside _
      exact contained.objection?_eq listed value path other scope beside
  have forth := agree scope beside mode
  have back := agree beside scope mode.symm
  exact forth.verdict_eq_of_both back fun _ _ _ same => same

/-- Fields that come to the same verdicts one by one come to the same verdict together. -/
theorem Members.fields_verdict {input other : List (String × Value)} {beside : Scope}
    {declared : List (String × Schema κ)}
    (each : ∀ field ∈ declared,
      (members.validate field.2 (input.lookup field.1) (path.key field.1) scope).verdict =
        (members.validate field.2 (other.lookup field.1) (path.key field.1) beside).verdict)
    (output : List (String × Value)) :
    (members.fields input path scope declared output).verdict =
      (members.fields other path beside declared output).verdict := by
  induction declared generalizing output with
  | nil => rfl
  | cons field rest ih =>
    obtain ⟨first, later⟩ := List.forall_mem_cons.mp each
    exact Run.verdict_bind first fun result _ => ih later _

/-- Positions come to the same verdict when the one after the last item is undefined as when it is
given what leads to the same verdict. -/
theorem Members.positions_verdict {schema : Schema κ} {default : Value}
    (same : ∀ path, (members.validate schema none path scope).verdict =
      (members.validate schema (some default) path scope).verdict)
    {schemas : List (Schema κ)} {items : List Value}
    (next : schemas[items.length]? = some schema) (index : Nat) :
    (members.positions path scope index schemas items).verdict =
      (members.positions path scope index schemas (items ++ [default])).verdict := by
  induction items generalizing schemas index with
  | nil =>
    cases schemas with
    | nil => cases next
    | cons first rest =>
      obtain rfl : first = schema := Option.some.inj next
      exact Run.verdict_bind (same _) fun _ _ => rfl
  | cons item others ih =>
    cases schemas with
    | nil => cases next
    | cons first rest =>
      apply Run.verdict_bind rfl
      intro result _
      exact Run.verdict_bind (ih next (index + 1)) fun _ _ => rfl

namespace Step

/-- An entry under a declared name is not among the undeclared ones. -/
theorem undeclared_insert {declared : List (String × Schema κ)} {name : String}
    (listed : name ∈ declared.map Prod.fst) (value : Value) (input : List (String × Value)) :
    undeclared declared (Entries.insert name value input) = undeclared declared input := by
  apply Entries.filter_insert (fun key => !declared.any fun field => field.1 == key)
  obtain ⟨field, among, rfl⟩ := List.mem_map.mp listed
  simp only [Bool.not_eq_false', List.any_eq_true]
  exact ⟨field, among, beq_self_eq_true _⟩

/-- The declared fields of a plain object come to the same verdict when an entry under a declared
name is put in, if each of them does. -/
theorem run_fields_insert {declared : List (String × Schema κ)} {name : String} {value : Value}
    {input : List (String × Value)} (listed : name ∈ declared.map Prod.fst)
    (each : ∀ field ∈ declared,
      (members.validate field.2 (input.lookup field.1) (path.key field.1)
          (scope.withCurrent (.object input))).verdict =
        (members.validate field.2 ((Entries.insert name value input).lookup field.1)
          (path.key field.1)
          (scope.withCurrent (.object (Entries.insert name value input)))).verdict) :
    ((fields declared).run host members settings (.object input) path scope).verdict =
      ((fields declared).run host members settings (.object (Entries.insert name value input)) path
        scope).verdict := by
  simp only [run, runFields, Value.fields?, undeclared_insert listed]
  split
  · rfl
  · exact Run.verdict_bind (Members.fields_verdict each []) fun _ _ => rfl

/-- The positions of an array come to the same verdict when the one after the last item is given, if
that position does. -/
theorem run_positions_append {schemas : List (Schema κ)} {items : List Value} {schema : Schema κ}
    {value : Value} (next : schemas[items.length]? = some schema)
    (same : ∀ path, (members.validate schema none path scope).verdict =
      (members.validate schema (some value) path scope).verdict) :
    ((positions schemas).run host members settings (.array items) path scope).verdict =
      ((positions schemas).run host members settings (.array (items ++ [value])) path
        scope).verdict := by
  obtain ⟨within, _⟩ := List.getElem?_eq_some_iff.mp next
  have fits : ¬ schemas.length < items.length := by omega
  have also : ¬ schemas.length < (items ++ [value]).length := by
    rw [List.length_append, List.length_singleton]
    omega
  simp only [run, runPositions, fits, also, decide_false, Bool.and_false, Bool.false_eq_true,
    if_false]
  exact Run.verdict_bind (Members.positions_verdict same next 0) fun _ _ => rfl

end Step

namespace Body

/-- Two values come to the same verdict when the first step rebuilds both of them alike, and they
are alike to the type check. -/
theorem validate_rebuilt {body : Body κ} {first : Step κ} {later : List (Step κ)}
    (starts : body.steps = first :: later) (role : first.role = .rebuild) {value other : Value}
    (defined : value ≠ .null) (also : other ≠ .null)
    (checked : body.settings.kind.check value = body.settings.kind.check other)
    (ran : (first.run host members body.settings value path scope).verdict =
      (first.run host members body.settings other path scope).verdict)
    (replaces : (first.run host members body.settings value path scope).result? ≠ some none) :
    (body.validate host members (some value) path scope).verdict =
      (body.validate host members (some other) path scope).verdict := by
  have taken : (takeSteps host members body.settings path scope body.steps value).verdict =
      (takeSteps host members body.settings path scope body.steps other).verdict := by
    rw [starts, takeSteps_of_rebuild role, takeSteps_of_rebuild role]
    apply Run.verdict_bind ran
    intro replaced reached
    cases replaced with
    | none => exact absurd reached replaces
    | some result => rfl
  have processed : (body.process host members value path scope).verdict =
      (body.process host members other path scope).verdict := by
    simp only [process, checked]
    split
    · rfl
    · exact Run.verdict_bind taken fun _ _ => rfl
  rw [validate_verdict defined, validate_verdict also]
  split
  · rfl
  · exact Run.verdict_bind processed fun _ _ => rfl

/-- A shape makes the same of a plain object with a declared field put in as of one without, if each
field does. -/
theorem validate_fields_insert {body : Body κ} {declared : List (String × Schema κ)}
    {criteria : List (Criterion κ)} (shaped : (Body.shape declared).applyAll criteria = .ok body)
    {name : String} {value : Value} {input : List (String × Value)}
    (listed : name ∈ declared.map Prod.fst)
    (each : ∀ field ∈ declared,
      (members.validate field.2 (input.lookup field.1) (path.key field.1)
          (scope.withCurrent (.object input))).verdict =
        (members.validate field.2 ((Entries.insert name value input).lookup field.1)
          (path.key field.1)
          (scope.withCurrent (.object (Entries.insert name value input)))).verdict) :
    (body.validate host members (some (.object input)) path scope).verdict =
      (body.validate host members (some (.object (Entries.insert name value input))) path
        scope).verdict := by
  obtain ⟨later, starts⟩ := applyAll_steps shaped
  have checked : body.settings.kind.check (.object input) =
      body.settings.kind.check (.object (Entries.insert name value input)) := by
    rw [applyAll_kind shaped]
    rfl
  have ran : ((Step.fields declared).run host members body.settings (.object input) path
      scope).verdict = ((Step.fields declared).run host members body.settings
        (.object (Entries.insert name value input)) path scope).verdict :=
    Step.run_fields_insert listed each
  apply validate_rebuilt starts.symm rfl Value.noConfusion Value.noConfusion checked ran
  intro reached
  rcases Step.run_fields_accepted reached with ⟨_, _, _, _, _, same⟩ | ⟨bare, _⟩
  · cases same
  · cases bare

/-- A tuple makes the same of an array with the position after its last item as of one without, if
that position does. -/
theorem validate_positions_append {body : Body κ} {schemas : List (Schema κ)}
    {criteria : List (Criterion κ)} (built : (Body.tuple schemas).applyAll criteria = .ok body)
    {items : List Value} {schema : Schema κ} {value : Value}
    (next : schemas[items.length]? = some schema)
    (same : ∀ path, (members.validate schema none path scope).verdict =
      (members.validate schema (some value) path scope).verdict) :
    (body.validate host members (some (.array items)) path scope).verdict =
      (body.validate host members (some (.array (items ++ [value]))) path scope).verdict := by
  obtain ⟨later, starts⟩ := applyAll_steps built
  have checked : body.settings.kind.check (.array items) =
      body.settings.kind.check (.array (items ++ [value])) := by
    rw [applyAll_kind built]
    rfl
  have ran : ((Step.positions schemas).run host members body.settings (.array items) path
      scope).verdict = ((Step.positions schemas).run host members body.settings
        (.array (items ++ [value])) path scope).verdict :=
    Step.run_positions_append next same
  apply validate_rebuilt starts.symm rfl Value.noConfusion Value.noConfusion checked ran
  intro reached
  rcases Step.run_positions_accepted reached with ⟨_, _, _, _, _, same⟩ | ⟨bare, _⟩
  · cases same
  · cases bare

end Body

/-- To leave out a field with a fixed default that is neither required nor forbidden is to write the
default, in a shape with fields of different names in which nothing looks around; and so it is for
the position after the last item of an array. -/
theorem Schema.validateAt_omitted (host : Host κ) (depth : Nat) (path : Path) (scope : Scope) :
    (∀ (declared : List (String × Schema κ)) (criteria : List (Criterion κ)) (body : Body κ),
      (declared.map Prod.fst).Nodup → (Body.shape declared).applyAll criteria = .ok body →
      (built body).Throughout host Body.SelfContained →
      ∀ (name : String) (schema : Schema κ) (default : Value),
        (name, schema) ∈ declared → schema.Supplies host default →
        ∀ input : List (String × Value), input.lookup name = none →
          ((built body).validateAt host depth (some (.object input)) path scope).verdict =
            ((built body).validateAt host depth
              (some (.object (Entries.insert name default input))) path scope).verdict) ∧
    ∀ (schemas : List (Schema κ)) (criteria : List (Criterion κ)) (body : Body κ),
      (Body.tuple schemas).applyAll criteria = .ok body →
      ∀ (items : List Value) (schema : Schema κ) (default : Value),
        schemas[items.length]? = some schema → schema.Supplies host default →
          ((built body).validateAt host depth (some (.array items)) path scope).verdict =
            ((built body).validateAt host depth (some (.array (items ++ [default]))) path
              scope).verdict := by
  cases depth with
  | zero => exact ⟨fun _ _ _ _ _ _ _ _ _ _ _ _ _ => rfl, fun _ _ _ _ _ _ _ _ _ => rfl⟩
  | succ depth =>
    constructor
    · intro declared criteria body distinct shaped contained name schema default listed supplies
        input absent
      apply Body.validate_fields_insert shaped (List.mem_map_of_mem listed)
      intro field among
      have mode : (scope.withCurrent (.object input)).mode =
          (scope.withCurrent (.object (Entries.insert name default input))).mode := rfl
      have inside : field.2.Throughout host Body.SelfContained := by
        have taken : .fields declared ∈ body.steps :=
          (Body.applyAll_steps shaped).subset List.mem_cons_self
        exact contained.member taken (List.mem_map_of_mem among)
      rw [Entries.lookup_insert]
      by_cases same : field.1 = name
      · -- No other schema is declared under the name, so the field is the one left out.
        have unique : field = (name, schema) :=
          List.inj_on_of_nodup_map distinct among listed same
        rw [if_pos same, same, absent, unique]
        rw [unique] at inside
        exact (supplies.validateAt depth).trans (verdict_beside inside depth _ mode)
      · rw [if_neg same]
        exact verdict_beside inside depth _ mode
    · intro schemas criteria body built items schema default next supplies
      exact Body.validate_positions_append built next fun place => supplies.validateAt depth

/-! ## Labels, an example -/

/-- One of two sizes, if any. -/
def labelSize : Body Unit := (Body.ofKind .string).refine (.text (.oneOf ["large", "small"]))

/-- The text of a label, which cannot be empty. -/
def labelText : Body Unit := (Body.ofKind .string).refine (.text .notEmpty)

/-- The fields of a label. -/
def labelFields : List (String × Schema Unit) :=
  [("size", .built labelSize), ("text", .built labelText)]

/-- A label, which has no other fields. -/
def label : Body Unit := (Body.shape labelFields).refine (.exact true)

/-- A label as an array: its text and then its size. -/
def labelPair : Body Unit := .tuple [.built labelText, .built labelSize]

/-- Nothing in a label looks around. -/
theorem label_selfContained : (Schema.built label).Throughout events Body.SelfContained := by
  have ruled : ∀ rule : TextRule, (Schema.built ((Body.ofKind .string).refine
      (.text rule))).Throughout events Body.SelfContained := by
    intro rule
    refine .built ⟨fun condition listed => ?_, nofun⟩ fun step taken inner handed => ?_
    · cases List.mem_singleton.mp listed
      rfl
    · rw [List.mem_singleton.mp taken] at handed
      cases handed
  refine .built ⟨fun condition listed => ?_, nofun⟩ fun step taken inner handed => ?_
  · cases List.mem_singleton.mp listed
  · rw [List.mem_singleton.mp taken] at handed
    rcases List.mem_pair.mp handed with rfl | rfl <;> exact ruled _

/-- The size of a label is no text by default, which escapes the rule on sizes. -/
theorem labelSize_supplies : (Schema.built labelSize).Supplies events (.string "") :=
  ⟨labelSize, .built _, rfl, rfl, rfl⟩

/-- A label without a size is one whose size is no text, as an object and as an array. -/
theorem Schema.validateAt_omitted_label :
    let sized := [("size", Value.string ""), ("text", Value.string "first")]
    (labelFields.map Prod.fst).Nodup ∧
      (Body.shape labelFields).applyAll [.exact true] = .ok label ∧
      (built label).Throughout events Body.SelfContained ∧
      ("size", .built labelSize) ∈ labelFields ∧
      (built labelSize).Supplies events (.string "") ∧
      [("text", Value.string "first")].lookup "size" = none ∧
      ((built label).validateAt events 3 (some (.object [("text", .string "first")])) .root
        (.new .strict)).verdict = .accepted (some (.object sized)) ∧
      ((built label).validateAt events 3 (some (.object sized)) .root (.new .strict)).verdict =
        .accepted (some (.object sized)) ∧
      (Body.tuple [.built labelText, .built labelSize]).applyAll [] = .ok labelPair ∧
      ((built labelPair).validateAt events 3 (some (.array [.string "first"])) .root
        (.new .strict)).verdict = .accepted (some (.array [.string "first", .string ""])) ∧
      ((built labelPair).validateAt events 3 (some (.array [.string "first", .string ""])) .root
        (.new .strict)).verdict = .accepted (some (.array [.string "first", .string ""])) := by
  intro sized
  have distinct : (labelFields.map Prod.fst).Nodup := by decide
  obtain ⟨shaped, paired⟩ := validateAt_omitted events 3 .root (.new .strict)
  have given : ((built label).validateAt events 3 (some (.object sized)) .root
      (.new .strict)).verdict = .accepted (some (.object sized)) := rfl
  have both : ((built labelPair).validateAt events 3
      (some (.array [.string "first", .string ""])) .root (.new .strict)).verdict =
        .accepted (some (.array [.string "first", .string ""])) := rfl
  have without := shaped labelFields [.exact true] label distinct rfl label_selfContained "size" _
    _ List.mem_cons_self labelSize_supplies [("text", .string "first")] rfl
  have shorter := paired _ [] labelPair rfl [.string "first"] _ _ rfl labelSize_supplies
  exact ⟨distinct, rfl, label_selfContained, List.mem_cons_self, labelSize_supplies, rfl,
    without.trans given, given, rfl, shorter.trans both, both⟩

end Assay
