import Assay.Json.Exchange
import Assay.Proofs.Doubles
import Assay.Proofs.Entries

/-!
# Exporting a value and importing it again

The leaves of a value (`Value.leaves`) decide whether it is exported: the first of them that is an
instance, a function or no finite number is the error (`Json.ofValue_error_iff`). An exported value
comes back as it was, with timestamps for its dates (`Json.toValue_ofValue`); the one step that is not
structural is that a double comes back from an integer (`Json.toValue_ofNumber`). Both are inductions
over values, item by item and field by field.
-/
namespace Assay

/-! ## The leaves of a value -/

namespace Value

mutual

/-- The parts of a value that are neither arrays nor plain objects, in order of items and of keys. -/
def leaves : Value → List Value
  | array items => itemLeaves items
  | object fields => fieldLeaves fields
  | leaf => [leaf]

/-- The leaves of the items of an array. -/
def itemLeaves : List Value → List Value
  | [] => []
  | item :: rest => leaves item ++ itemLeaves rest

/-- The leaves of the fields of an object. -/
def fieldLeaves : List (String × Value) → List Value
  | [] => []
  | (_, value) :: rest => leaves value ++ fieldLeaves rest

end

/-- Why a leaf has no document: it is an instance, a function or no finite number. -/
def obstacle? (leaf : Value) : Option ExportError :=
  match leaf with
  | inst .. | function _ => some (.unrepresentable leaf.category)
  | number value => if isFiniteNumber value then none else some (.notFinite value)
  | _ => none

/-- The obstacle at the first leaf that has one. -/
def firstObstacle? (leaves : List Value) : Option ExportError := leaves.findSome? obstacle?

mutual

/-- The value with a timestamp in the place of each date in its arrays and plain objects. -/
def withTimestamps : Value → Value
  | date value => string value.toText
  | array items => array (itemsWithTimestamps items)
  | object fields => object (fieldsWithTimestamps fields)
  | leaf => leaf

/-- The items of an array with timestamps for dates. -/
def itemsWithTimestamps : List Value → List Value
  | [] => []
  | item :: rest => withTimestamps item :: itemsWithTimestamps rest

/-- The fields of an object with timestamps for dates. -/
def fieldsWithTimestamps : List (String × Value) → List (String × Value)
  | [] => []
  | (key, value) :: rest => (key, withTimestamps value) :: fieldsWithTimestamps rest

end

mutual

/-- Plain objects ascend, at every depth of arrays and plain objects. -/
def Ordered : Value → Prop
  | array items => OrderedItems items
  | object fields => Entries.Sorted fields ∧ OrderedFields fields
  | _ => True

/-- The items of an array are ordered. -/
def OrderedItems : List Value → Prop
  | [] => True
  | item :: rest => Ordered item ∧ OrderedItems rest

/-- The fields of an object are ordered. -/
def OrderedFields : List (String × Value) → Prop
  | [] => True
  | (_, value) :: rest => Ordered value ∧ OrderedFields rest

end

/-- Of the leaves of two parts, the first obstacle is that of the first part, if it has one. -/
theorem firstObstacle?_append (first second : List Value) :
    firstObstacle? (first ++ second) = (firstObstacle? first).or (firstObstacle? second) :=
  List.findSome?_append

/-- Equal fields have the same keys. -/
theorem keys_of_sameFields {first second : List (String × Value)}
    (same : sameFields first second = true) : Entries.keys first = Entries.keys second := by
  induction first generalizing second with
  | nil =>
    cases second with
    | nil => rfl
    | cons entry rest => cases same
  | cons entry rest ih =>
    cases second with
    | nil => cases same
    | cons twin others =>
      simp only [sameFields, Bool.and_eq_true, beq_iff_eq] at same
      obtain ⟨⟨key, -⟩, tail⟩ := same
      simp only [Entries.keys, List.map_cons] at ih ⊢
      rw [key, ih tail]

/-- Timestamps leave the keys alone. -/
theorem keys_fieldsWithTimestamps (fields : List (String × Value)) :
    Entries.keys (fieldsWithTimestamps fields) = Entries.keys fields := by
  induction fields with
  | nil => rfl
  | cons entry rest ih =>
    simp only [Entries.keys, fieldsWithTimestamps, List.map_cons] at ih ⊢
    rw [ih]

end Value

namespace Json

open Value (firstObstacle? obstacle?)

/-! ## What is no document -/

/-- What is done with a result fails if there is none, or if it fails. -/
theorem bind_eq_error_iff {ε α β : Type} {result : Except ε α} {next : α → Except ε β} {error : ε} :
    result >>= next = .error error ↔
      result = .error error ∨ ∃ value, result = .ok value ∧ next value = .error error := by
  cases result with
  | error other => simp [bind, Except.bind]
  | ok value => simp [bind, Except.bind]

/-- A result that is changed fails as before. -/
theorem map_eq_error_iff {ε α β : Type} {result : Except ε α} {change : α → β} {error : ε} :
    result.map change = .error error ↔ result = .error error := by
  cases result <;> simp [Except.map]

/-- What is done with a result has a value if there is one, and then one there. -/
theorem bind_eq_ok_iff {ε α β : Type} {result : Except ε α} {next : α → Except ε β} {value : β} :
    result >>= next = .ok value ↔ ∃ first, result = .ok first ∧ next first = .ok value := by
  cases result <;> simp [bind, Except.bind]

/-- A result that is changed has a value if there is one to change. -/
theorem map_eq_ok_iff {ε α β : Type} {result : Except ε α} {change : α → β} {value : β} :
    result.map change = .ok value ↔ ∃ first, result = .ok first ∧ change first = value := by
  cases result <;> simp [Except.map]

/-- A result that fails with exactly the errors found is one where none is found. -/
theorem exists_ok_iff {ε α : Type} {result : Except ε α} {found : Option ε}
    (fails : ∀ error, result = .error error ↔ found = some error) :
    (∃ value, result = .ok value) ↔ found = none := by
  cases result with
  | error error => simp [(fails error).mp rfl]
  | ok value =>
    cases found with
    | none => simp
    | some error => cases (fails error).mpr rfl

/-- A part and the rest fail with the first error that is found in the part or in the rest. -/
theorem bind_error_iff_or {ε α β γ : Type} {first : Except ε α} {rest : Except ε β}
    {combine : α → β → γ} {found later : Option ε}
    (here : ∀ error, first = .error error ↔ found = some error)
    (there : ∀ error, rest = .error error ↔ later = some error) (error : ε) :
    (do let part ← first; let others ← rest; .ok (combine part others)) = .error error ↔
      found.or later = some error := by
  simp only [bind_eq_error_iff, reduceCtorEq, and_false, exists_false, or_false, there,
    Option.or_eq_some_iff, ← exists_ok_iff here, ← here, exists_and_right]

/-- A number fails unless it is finite. -/
theorem ofNumber_error_iff (number : Float) (error : ExportError) :
    ofNumber number = .error error ↔ obstacle? (.number number) = some error := by
  cases finite : Binary.ofFloat? number with
  | none => simp [ofNumber, obstacle?, isFiniteNumber, finite]
  | some binary =>
    cases whole : binary.toInt? <;> simp [ofNumber, obstacle?, isFiniteNumber, finite, whole]

mutual

/-- A value has no document exactly if one of its leaves has none, and the error is that of the first
such leaf. -/
theorem ofValue_error_iff (value : Value) (error : ExportError) :
    ofValue value = .error error ↔ firstObstacle? value.leaves = some error := by
  cases value with
  | number number =>
    rw [ofValue, ofNumber_error_iff]
    simp [Value.leaves, firstObstacle?]
  | array items =>
    rw [ofValue, map_eq_error_iff, Value.leaves]
    exact ofItems_error_iff items error
  | object fields =>
    rw [ofValue, map_eq_error_iff, Value.leaves]
    exact ofFields_error_iff fields error
  | null | bool | string | date | inst | function =>
    simp [ofValue, Value.leaves, firstObstacle?, obstacle?, Value.category]

/-- Items have no documents exactly if one of their leaves has none. -/
theorem ofItems_error_iff (items : List Value) (error : ExportError) :
    ofItems items = .error error ↔ firstObstacle? (Value.itemLeaves items) = some error := by
  cases items with
  | nil => simp [ofItems, Value.itemLeaves, firstObstacle?]
  | cons item rest =>
    rw [ofItems, Value.itemLeaves, Value.firstObstacle?_append]
    exact bind_error_iff_or (ofValue_error_iff item) (ofItems_error_iff rest) error

/-- Fields have no documents exactly if one of their leaves has none. -/
theorem ofFields_error_iff (fields : List (String × Value)) (error : ExportError) :
    ofFields fields = .error error ↔ firstObstacle? (Value.fieldLeaves fields) = some error := by
  cases fields with
  | nil => simp [ofFields, Value.fieldLeaves, firstObstacle?]
  | cons entry rest =>
    obtain ⟨key, value⟩ := entry
    rw [ofFields, Value.fieldLeaves, Value.firstObstacle?_append]
    exact bind_error_iff_or (ofValue_error_iff value) (ofFields_error_iff rest) error

end

/-! ## What comes back -/

/-- A finite number comes back equal, whether it was exported as an integer or as a double. -/
theorem toValue_ofNumber {number : Float} {document : Json}
    (exported : ofNumber number = .ok document) :
    (document.toValue).same (.number number) = true := by
  rw [ofNumber] at exported
  cases finite : Binary.ofFloat? number with
  | none =>
    rw [finite] at exported
    cases exported
  | some binary =>
    simp only [finite] at exported
    cases found : binary.toInt? with
    | none =>
      rw [found] at exported
      cases exported
      exact Binary.beq_self_of_finite finite
    | some whole =>
      rw [found] at exported
      obtain rfl := Except.ok.inj exported
      split
      · exact Binary.nearestInt_beq finite found
      · exact Binary.beq_self_of_finite finite

mutual

/-- An exported value comes back as it was, with timestamps for its dates. -/
theorem toValue_ofValue {value : Value} {document : Json} (ordered : value.Ordered)
    (exported : ofValue value = .ok document) :
    (document.toValue).same value.withTimestamps = true := by
  cases value with
  | number number => exact toValue_ofNumber exported
  | array items =>
    obtain ⟨documents, parts, rfl⟩ := map_eq_ok_iff.mp exported
    exact toItems_ofItems ordered parts
  | object fields =>
    obtain ⟨documents, parts, rfl⟩ := map_eq_ok_iff.mp exported
    have same := toFields_ofFields ordered.2 parts
    -- The import sorts the fields, which are in order because their keys are those of the object.
    have keys : Entries.keys (toFields documents) = Entries.keys fields :=
      (Value.keys_of_sameFields same).trans (Value.keys_fieldsWithTimestamps fields)
    have sorted := Entries.sorted_of_keys keys.symm ordered.1
    rw [toValue, Value.ofFields, Entries.ofList_of_sorted sorted]
    exact same
  | null | bool | string | date =>
    cases exported
    simp [toValue, Value.withTimestamps, Value.same]
  | inst | function => cases exported

/-- Exported items come back as they were, with timestamps for their dates. -/
theorem toItems_ofItems {items : List Value} {documents : List Json}
    (ordered : Value.OrderedItems items) (exported : ofItems items = .ok documents) :
    Value.sameItems (toItems documents) (Value.itemsWithTimestamps items) = true := by
  cases items with
  | nil =>
    cases exported
    rfl
  | cons item rest =>
    obtain ⟨first, part, exported⟩ := bind_eq_ok_iff.mp exported
    obtain ⟨others, parts, exported⟩ := bind_eq_ok_iff.mp exported
    cases exported
    exact Bool.and_eq_true_iff.mpr ⟨toValue_ofValue ordered.1 part, toItems_ofItems ordered.2 parts⟩

/-- Exported fields come back as they were, with timestamps for their dates. -/
theorem toFields_ofFields {fields : List (String × Value)} {documents : List (String × Json)}
    (ordered : Value.OrderedFields fields) (exported : ofFields fields = .ok documents) :
    Value.sameFields (toFields documents) (Value.fieldsWithTimestamps fields) = true := by
  cases fields with
  | nil =>
    cases exported
    rfl
  | cons entry rest =>
    obtain ⟨key, value⟩ := entry
    obtain ⟨first, part, exported⟩ := bind_eq_ok_iff.mp exported
    obtain ⟨others, parts, exported⟩ := bind_eq_ok_iff.mp exported
    cases exported
    simp only [toFields, Value.fieldsWithTimestamps, Value.sameFields, beq_self_eq_true,
      Bool.true_and]
    exact Bool.and_eq_true_iff.mpr
      ⟨toValue_ofValue ordered.1 part, toFields_ofFields ordered.2 parts⟩

end

/-- The document of a finite number is its integer or the number itself. -/
theorem ofNumber_of_finite {number : Float} (finite : isFiniteNumber number = true) :
    ∃ document, ofNumber number = .ok document ∧
      (document = decimal number ∨
        ∃ whole, wholeNumber? number = some whole ∧ document = integer whole) := by
  obtain ⟨binary, found⟩ := Option.isSome_iff_exists.mp finite
  cases exact : binary.toInt? with
  | none => exact ⟨decimal number, by simp [ofNumber, found, exact], .inl rfl⟩
  | some whole =>
    have exported : ofNumber number =
        .ok (if whole.natAbs < Nat.pow 2 63 then integer whole else decimal number) := by
      simp only [ofNumber, found, exact]
    refine ⟨_, exported, ?_⟩
    split
    · exact .inr ⟨whole, by simp [wholeNumber?, found, exact], rfl⟩
    · exact .inl rfl

/-- The export of a value whose plain objects ascend fails with the first obstacle among its leaves;
without one there is a document, which comes back as the value with timestamps for its dates. So every
finite number comes back equal, from its integer as from itself. -/
theorem ofValue_roundtrip (value : Value) (ordered : value.Ordered) :
    (∀ error, ofValue value = .error error ↔ firstObstacle? value.leaves = some error) ∧
      (firstObstacle? value.leaves = none → ∃ document, ofValue value = .ok document ∧
        (document.toValue == value.withTimestamps) = true) ∧
      ∀ number, isFiniteNumber number = true → ∃ document, ofNumber number = .ok document ∧
        (document = decimal number ∨
          ∃ whole, wholeNumber? number = some whole ∧ document = integer whole) ∧
        (document.toValue == .number number) = true := by
  refine ⟨ofValue_error_iff value, fun clear => ?_, fun number finite => ?_⟩
  · obtain ⟨document, exported⟩ := (exists_ok_iff (ofValue_error_iff value)).mpr clear
    exact ⟨document, exported, toValue_ofValue ordered exported⟩
  · obtain ⟨document, exported, form⟩ := ofNumber_of_finite finite
    exact ⟨document, exported, form, toValue_ofNumber exported⟩

/-- A list with a date, and with an object that holds the largest number that is exported as an
integer and the number after it. -/
def readings : Value :=
  .array [.date ⟨0, 0⟩,
    .object [("above", .number 9223372036854775808), ("below", .number 9223372036854774784)]]

/-- The list has a document, which comes back as the list with a timestamp for its date. -/
theorem readings_roundtrip : readings.Ordered ∧ ∃ document, ofValue readings = .ok document ∧
    (document.toValue == readings.withTimestamps) = true := by
  have ordered : readings.Ordered :=
    ⟨trivial, ⟨List.pairwise_pair.mpr (by decide), trivial, trivial, trivial⟩, trivial⟩
  exact ⟨ordered, (ofValue_roundtrip readings ordered).2.1 rfl⟩

/-- The instance comes before the function, at whatever depth. -/
example : ofValue (.array [.object [("held", .inst (.base 1 "Pool") [])], .function ⟨1, none⟩]) =
    .error (.unrepresentable .inst) := rfl

end Json

end Assay
