import Assay.Proofs.Settlement

/-!
# What a shape makes of an object

The declared fields of an object are validated one after the other, each beside the object and on
what the object has under its name (`Members.field`), and their results are put together with the
entries that no field declares. What comes of it is described without that order of work
(`Step.run_fields_computes`): which keys are unknown, which field ends the step, and, key by key,
what the object leads to in the end (`Members.Joins`).
-/
namespace Assay

namespace Entries

variable {α : Type}

/-- What an outcome contributes to the values under a key. -/
theorem contributes_eq_none_iff {key : String} {outcome : String × Option α} :
    (if outcome.1 = key then outcome.2 else none) = none ↔
      (outcome.1 = key → outcome.2 = none) := by
  by_cases same : outcome.1 = key <;> simp [same]

/-- The last value under a key is that of an outcome after which no outcome under the key is a
value. -/
theorem latest_eq_some_iff {key : String} {value : α} {outcomes : List (String × Option α)} :
    latest key outcomes = some value ↔
      ∃ before after, outcomes = before ++ (key, some value) :: after ∧
        ∀ outcome ∈ after, outcome.1 = key → outcome.2 = none := by
  constructor
  · intro found
    unfold latest at found
    obtain ⟨earlier, values⟩ := List.getLast?_eq_some_iff.mp found
    obtain ⟨front, back, rfl, _, only⟩ := List.filterMap_eq_append_iff.mp values
    obtain ⟨skipped, ⟨label, result⟩, after, rfl, _, own, rest⟩ :=
      List.filterMap_eq_cons_iff.mp only
    have same : label = key := by
      by_contra other
      simp [other] at own
    have held : result = some value := by simpa [same] using own
    refine ⟨front ++ skipped, after, ?_, ?_⟩
    · rw [List.append_assoc, same, held]
    · simpa only [List.filterMap_eq_nil_iff, contributes_eq_none_iff] using rest
  · rintro ⟨before, after, rfl, last⟩
    have rest : after.filterMap (fun outcome => if outcome.1 = key then outcome.2 else none) =
        [] := by
      simpa only [List.filterMap_eq_nil_iff, contributes_eq_none_iff] using last
    unfold latest
    rw [List.filterMap_append, List.filterMap_cons]
    simp [rest]

end Entries

variable {κ : Type}

namespace Members

variable {members : Members κ} {declared : List (String × Schema κ)}
  {input : List (String × Value)} {path : Path} {scope : Scope} {value : Value}

/-- Validate a declared field on what its object has under the name, beside the object. -/
def field (members : Members κ) (value : Value) (input : List (String × Value)) (path : Path)
    (scope : Scope) (field : String × Schema κ) : Run (Option Value) :=
  members.validate field.2 (input.lookup field.1) (path.key field.1) (scope.withCurrent value)

/-- The field is the first of the declared ones that has no result. -/
def StopsAt (members : Members κ) (declared : List (String × Schema κ)) (value : Value)
    (input : List (String × Value)) (path : Path) (scope : Scope)
    (stuck : String × Schema κ) : Prop :=
  ∃ before after, declared = before ++ stuck :: after ∧
    (∀ other ∈ before, ∃ outcome,
      (members.field value input path scope other).result? = some outcome) ∧
    (members.field value input path scope stuck).result? = none

/-- Of the fields declared under the key, the last one that has a value has this one. -/
def Yields (members : Members κ) (declared : List (String × Schema κ)) (value : Value)
    (input : List (String × Value)) (path : Path) (scope : Scope) (key : String)
    (result : Value) : Prop :=
  ∃ before schema after, declared = before ++ (key, schema) :: after ∧
    (members.field value input path scope (key, schema)).result? = some (some result) ∧
    ∀ other ∈ after, other.1 = key →
      (members.field value input path scope other).result? = some none

/-- The entries ascend, and each key leads to what its declared fields yield, or to what it led to
in the object if no field is declared under it, and nowhere else. -/
def Joins (members : Members κ) (declared : List (String × Schema κ)) (value : Value)
    (input : List (String × Value)) (path : Path) (scope : Scope)
    (entries : List (String × Value)) : Prop :=
  Entries.Sorted entries ∧ ∀ key result, entries.lookup key = some result ↔
    key ∉ declared.map Prod.fst ∧ input.lookup key = some result ∨
      members.Yields declared value input path scope key result

/-- The first field without a result ends what begins with the fields. -/
theorem fields_stop {stuck : String × Schema κ}
    (stops : members.StopsAt declared value input path scope stuck)
    (output : List (String × Value)) (next : List (String × Value) → Run (Option Value)) :
    (members.fields input path (scope.withCurrent value) declared output >>= next).verdict =
      (members.field value input path scope stuck).verdict := by
  obtain ⟨before, after, rfl, earlier, stopped⟩ := stops
  induction before generalizing output with
  | nil =>
    rw [List.nil_append, fields, Run.verdict_bind_assoc]
    exact Run.verdict_bind_of_none stopped _
  | cons first rest ih =>
    obtain ⟨⟨outcome, head⟩, tail⟩ := List.forall_mem_cons.mp earlier
    rw [List.cons_append, fields, Run.verdict_bind_assoc]
    exact (Run.verdict_bind_of_result head _).trans (ih _ tail)

/-- Where each field has a result, the last value under a key among the results is what the fields
yield there. -/
theorem latest_iff_yields (each : ∀ field ∈ declared, ∃ outcome,
      (members.field value input path scope field).result? = some outcome)
    {key : String} {result : Value} :
    Entries.latest key (declared.map fun field =>
        (field.1, (members.field value input path scope field).result?.join)) = some result ↔
      members.Yields declared value input path scope key result := by
  rw [Entries.latest_eq_some_iff]
  constructor
  · rintro ⟨before, after, split, last⟩
    obtain ⟨front, rest, rfl, _, same⟩ := List.map_eq_append_iff.mp split
    obtain ⟨⟨label, schema⟩, back, rfl, own, rfl⟩ := List.map_eq_cons_iff.mp same
    obtain ⟨rfl, yielded⟩ := Prod.mk.inj own
    refine ⟨front, schema, back, rfl, Option.join_eq_some_iff.mp yielded, ?_⟩
    intro other listed named
    obtain ⟨outcome, validated⟩ := each other
      (List.mem_append_right _ (List.mem_cons_of_mem _ listed))
    have void := last _ (List.mem_map_of_mem listed) named
    simp only [validated, Option.join_some] at void
    rw [validated, void]
  · rintro ⟨before, schema, after, rfl, own, rest⟩
    refine ⟨before.map _, after.map _, by rw [List.map_append, List.map_cons, own]; rfl, ?_⟩
    intro outcome listed named
    obtain ⟨other, among, rfl⟩ := List.mem_map.mp listed
    rw [rest other among named]
    rfl

/-- Only declared keys are yielded. -/
theorem mem_of_yields {key : String} {result : Value}
    (yielded : members.Yields declared value input path scope key result) :
    key ∈ declared.map Prod.fst := by
  obtain ⟨before, schema, after, rfl, _⟩ := yielded
  simp

/-- What accepted fields are put together with joins them. -/
theorem joins_of_accepted {built : List (String × Value)}
    (accepted : (members.fields input path (scope.withCurrent value) declared []).result? =
      some built) :
    members.Joins declared value input path scope
      (Entries.overlay built (Step.undeclared declared input)) := by
  refine ⟨Step.sorted_fields accepted, fun key result => ?_⟩
  obtain ⟨outcomes, each, lookup⟩ := Step.fields_outcomes accepted
  rw [lookup key]
  by_cases listed : key ∈ declared.map Prod.fst
  · have results : ∀ field ∈ declared, ∃ outcome,
        (members.field value input path scope field).result? = some outcome := by
      intro field member
      obtain ⟨outcome, _, _, validated⟩ := Entries.exists_left_of_forall₂ each.flip member
      exact ⟨outcome.2, validated⟩
    have same : outcomes = declared.map fun field =>
        (field.1, (members.field value input path scope field).result?.join) := by
      clear lookup listed results accepted
      induction each with
      | nil => rfl
      | cons head _ ih =>
        obtain ⟨named, validated⟩ := head
        rw [List.map_cons, ← ih, ← named, field, validated]
        rfl
    rw [if_pos listed, same, latest_iff_yields results]
    simp [listed]
  · rw [if_neg listed]
    constructor
    · intro found
      exact .inl ⟨listed, found⟩
    · rintro (⟨_, found⟩ | yielded)
      · exact found
      · exact absurd (mem_of_yields yielded) listed

end Members

namespace Step

variable {declared : List (String × Schema κ)} {input : List (String × Value)}

/-- The keys of undeclared entries ascend where all keys do. -/
theorem keys_undeclared_ascend (sorted : Entries.Sorted input) :
    (Entries.keys (undeclared declared input)).Pairwise (· < ·) :=
  List.pairwise_map.mpr (sorted.filter _)

/-- The undeclared keys are the keys under which no field is declared. -/
theorem mem_keys_undeclared {key : String} :
    key ∈ Entries.keys (undeclared declared input) ↔
      key ∈ Entries.keys input ∧ key ∉ declared.map Prod.fst := by
  simp only [Entries.keys, undeclared, List.mem_map, List.mem_filter, Bool.not_eq_true',
    List.any_eq_false, beq_iff_eq]
  constructor
  · rintro ⟨entry, ⟨given, other⟩, rfl⟩
    refine ⟨⟨entry, given, rfl⟩, ?_⟩
    rintro ⟨field, listed, same⟩
    exact other field listed same
  · rintro ⟨⟨entry, given, rfl⟩, other⟩
    exact ⟨entry, ⟨given, fun field listed same => other ⟨field, listed, same⟩⟩, rfl⟩

/-- A shape refuses an object or an instance with undeclared keys if it is exact and validation is
strict, and names these keys in order. Otherwise the first declared field without a result decides
how it ends. Where all declared fields have results, a plain object is replaced by the one that
joins them, and an instance stays. -/
theorem run_fields_computes (host : Host κ) (members : Members κ)
    (declared : List (String × Schema κ)) (settings : Settings κ) (value : Value)
    (given : value.fields? = some input) (sorted : Entries.Sorted input) (path : Path)
    (scope : Scope) :
    ∃ names : List String, names.Pairwise (· < ·) ∧
      (∀ key, key ∈ names ↔ key ∈ Entries.keys input ∧ key ∉ declared.map Prod.fst) ∧
      (settings.exact = true ∧ scope.isStrict = true ∧ names ≠ [] →
        ∃ fault, ((fields declared).run host members settings value path scope).verdict =
            .rejected fault ∧
          fault.path = path ∧
          fault.reason.message = "Unknown fields: " ++ ", ".intercalate names ++ ".") ∧
      (¬ (settings.exact = true ∧ scope.isStrict = true ∧ names ≠ []) →
        (∀ stuck, members.StopsAt declared value input path scope stuck →
          ((fields declared).run host members settings value path scope).verdict =
            (members.field value input path scope stuck).verdict) ∧
        ((∀ field ∈ declared, ∃ outcome,
            (members.field value input path scope field).result? = some outcome) →
          (value = .object input → ∃ entries,
            ((fields declared).run host members settings value path scope).verdict =
                .accepted (some (.object entries)) ∧
              members.Joins declared value input path scope entries) ∧
          (∀ cls, value = .inst cls input →
            ((fields declared).run host members settings value path scope).verdict =
              .accepted none))) := by
  refine ⟨Entries.keys (undeclared declared input), keys_undeclared_ascend sorted,
    fun key => mem_keys_undeclared, ?_, ?_⟩
  · rintro ⟨exact, strict, unknown⟩
    have refused : (settings.exact && scope.isStrict && !(undeclared declared input).isEmpty) =
        true := by
      have filled : undeclared declared input ≠ [] := by
        intro none
        exact unknown (congrArg Entries.keys none)
      simp [exact, strict, filled]
    refine ⟨.located path (.unknownFields (Entries.keys (undeclared declared input))), ?_, rfl, rfl⟩
    rw [run, runFields, given]
    dsimp only
    rw [if_pos refused]
    rfl
  · intro allowed
    have closed : settings.exact = true → scope.isStrict = true →
        undeclared declared input = [] := by
      intro exact strict
      by_contra filled
      have unknown : Entries.keys (undeclared declared input) ≠ [] := by
        simpa [Entries.keys] using filled
      exact allowed ⟨exact, strict, unknown⟩
    rw [run_fields_of_closed given closed]
    refine ⟨fun stuck stops => Members.fields_stop stops [] _, fun each => ?_⟩
    · obtain ⟨built, accepted⟩ := Members.fields_of_accepted each []
      have ended := Run.verdict_bind_of_result accepted fun built =>
        (pure (rebuilt value built (undeclared declared input)) : Run (Option Value))
      rw [ended]
      refine ⟨fun plain => ⟨_, ?_, Members.joins_of_accepted accepted⟩, fun cls own => ?_⟩
      · rw [plain]
        rfl
      · rw [own]
        rfl

end Step

/-- A note is declared twice, the second time as something that is not used any more, and so is
what is gone. -/
def remarks : List (String × Schema Unit) :=
  [("note", .built note), ("note", .built ((Body.ofKind .string).refine .never)),
    ("gone", .built ((Body.ofKind .string).refine .never))]

/-- What is extra. -/
def extra : List (String × Value) := [("extra", .bool true)]

/-- What is extra stays, the first note is the last one that has a value, and what is gone is
absent. -/
theorem Step.run_fields_computes_remarks :
    (Value.object extra).fields? = some extra ∧ Entries.Sorted extra ∧
      ((Step.fields remarks).run events (Schema.membersAt events 1) (Body.shape remarks).settings
          (.object extra) .root (.new .strict)).verdict =
        .accepted (some (.object [("extra", .bool true), ("note", .string "unknown")])) ∧
      (Schema.membersAt events 1).Joins remarks (.object extra) extra .root (.new .strict)
        [("extra", .bool true), ("note", .string "unknown")] := by
  have sorted : Entries.Sorted extra := List.pairwise_singleton _ _
  obtain ⟨names, _, _, _, allowed⟩ := run_fields_computes events (Schema.membersAt events 1) remarks
    (Body.shape remarks).settings (.object extra) rfl sorted .root (.new .strict)
  have each : ∀ field ∈ remarks, ∃ outcome, ((Schema.membersAt events 1).field (.object extra) extra
      .root (.new .strict) field).result? = some outcome := by
    simp only [remarks, List.forall_mem_cons]
    exact ⟨⟨_, rfl⟩, ⟨_, rfl⟩, ⟨_, rfl⟩, fun _ listed => by cases listed⟩
  obtain ⟨entries, ended, joined⟩ :=
    ((allowed fun refused => Bool.false_ne_true refused.1).2 each).1 rfl
  have found : entries = [("extra", .bool true), ("note", .string "unknown")] := by
    injection ended with result
    injection result with object
    injection object with same
    exact same.symm
  rw [found] at ended joined
  exact ⟨rfl, sorted, ended, joined⟩

end Assay
